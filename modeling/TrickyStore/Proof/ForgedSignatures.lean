import TrickyStore.Proof.DesignatedAttestKey
import TrickyStore.Proof.LegacyKeyPairs
import TrickyStore.Proof.OperationData
import TrickyStore.Proof.UsageLimit

/-!
# Signatures of forged keys

A forged key is a key pair and a certificate for its public key.  Both go through the maps of the cache, the
key files and restarts, and operations that sign with the private key outlive them.  A signature that a client
gets from such an operation verifies under the certificate that is read for the same generation of the key,
unless a client has replaced the certificate.
-/

open Lib

namespace TrickyStore

open CertificateAliasCache

/-- What the private key of the pair signs, the public key verifies. -/
def Providers.Verifies (J : Providers) (pair : KeyPair) : Prop :=
  ∀ algorithm data signature, J.sign algorithm pair.privateKey data = .ok signature →
    J.verify algorithm pair.publicKey data signature = .ok true

/-- What the hook of the event reads from its surroundings. -/
def Event.surroundings : Event → Option Env
  | .arrive _ _ _ env | .complete _ _ _ env | .loadPersistedKeys _ env => some env
  | _ => none

/-- The pairs that are generated sign what they verify, and the leaves that are built carry their public
keys. -/
def Event.MakesKeys (J : Providers) (certificateKey : Bytes → Option Bytes) (e : Event) : Prop :=
  ∀ env, e.surroundings = some env →
    (∀ params pair, env.generateKeyPair params = some pair → J.Verifies pair) ∧ CarriesKey certificateKey env

/-- The request is an `updateSubcomponent` that puts this certificate to the key. -/
def Daemon.Updates (d : Daemon) (uid : Int) (request : Request) (k : Key) (certificate : Option Bytes) : Prop :=
  ∃ desc chain, request = .updateSubcomponent (some desc) certificate chain ∧
    d.updateTarget uid desc = some (some k)

def World.Replaces (w : World) (k : Key) (certificate : Option Bytes) : Event → Prop
  | .arrive _ uid request _ => w.daemon.Updates uid request k certificate
  | _ => False

/-- Some event of the run has put this certificate to the key. -/
def World.ReplacedIn (P : Platform) (es : List Event) (k : Key) (certificate : Option Bytes) : Prop :=
  ∃ before e after, es = before ++ e :: after ∧ (World.run P {} before).Replaces k certificate e

/-- The pair signs, and the certificate is for it, or was put in its place. -/
def Vouched (J : Providers) (certificateKey : Bytes → Option Bytes) (replaced : Prop)
    (keyPair : Option KeyPair) (certificate : Option Bytes) : Prop :=
  ∃ pair, keyPair = some pair ∧ J.Verifies pair ∧
    (replaced ∨ certificate.bind certificateKey = some pair.publicKey)

/-- The certificate that a restored key is read with. -/
def PersistedKey.certificate (pk : PersistedKey) : Option Bytes :=
  match pk.metadataBytes with
  | some m => m.certificate
  | none => pk.chain.head?.map Certificate.encoded

/-! ## Entries after a hook -/

section Hook

variable {uid : Int} {request : Request} {now : ℕ} {ids : Int → Prop} {c c' : CertificateAliasCache}
  {p p' : PassthroughKeyRegistry} {k : Key}

/-- A forged key after a hook was there before, with its pair and, but for an `updateSubcomponent`, its
certificate, or was made by the hook. -/
theorem HookStep.key_origin {info' : Info} (h : HookStep uid request now ids c p c' p')
    (hk : c'.keys.lookup k = some info') :
    (∃ info, c.keys.lookup k = some info ∧ info.response.serial = info'.response.serial ∧
        info.keyPair = info'.keyPair ∧
        (info.response.metadata.certificate = info'.response.metadata.certificate ∨
          ∃ kd cert chain, request = .updateSubcomponent kd cert chain)) ∨
      info'.response.serial = now ∧ request.isGenerateKey = true := by
  have hclear {k' : Key} (h : (c.clear k').keys.lookup k = some info') : c.keys.lookup k = some info' :=
    (HashMap.lookup_erase_eq_some.1 h).2
  cases h with
  | unchanged | unskipped | regranted | granted | ungranted | resigned =>
    exact .inl ⟨info', hk, rfl, rfl, .inl rfl⟩
  | cleared | relinquished => exact .inl ⟨info', hclear hk, rfl, rfl, .inl rfl⟩
  | patched | promoted =>
    simp only [storePatched, register_keys] at hk
    exact .inl ⟨info', hclear hk, rfl, rfl, .inl rfl⟩
  | generated a info pair chain n skip hserial _ _ hrequest =>
    rcases HashMap.lookup_insert_eq_some.1 hk with ⟨rfl, rfl⟩ | ⟨-, hk⟩
    · exact .inr ⟨hserial, hrequest⟩
    · exact .inl ⟨info', hclear hk, rfl, rfl, .inl rfl⟩
  | updated k' kd publicCert certificateChain hrequest =>
    rw [updateKeyCertChain_keys_lookup] at hk
    obtain ⟨info, hinfo, rfl⟩ := Option.map_eq_some_iff.1 hk
    left
    split_ifs
    · exact ⟨info, hinfo, rfl, rfl, .inr ⟨kd, publicCert, certificateChain, hrequest⟩⟩
    · exact ⟨info, hinfo, rfl, rfl, .inl rfl⟩

/-- A re-signed response after a hook was there before, or was made by the hook. -/
theorem HookStep.patched_origin {r' : KeyEntryResponse} (h : HookStep uid request now ids c p c' p')
    (hr : c'.patchedResponses.lookup k = some r') :
    (∃ r, c.patchedResponses.lookup k = some r ∧ r.serial = r'.serial) ∨
      r'.serial = now ∧ ∀ info, c'.keys.lookup k = some info → c.keys.lookup k = some info := by
  have hclear {k' : Key} (h : (c.clear k').patchedResponses.lookup k = some r') :
      c.patchedResponses.lookup k = some r' := (HashMap.lookup_erase_eq_some.1 h).2
  cases h with
  | unchanged | unskipped | regranted | granted | ungranted => exact .inl ⟨r', hr, rfl⟩
  | cleared | relinquished => exact .inl ⟨r', hclear hr, rfl⟩
  | generated a info pair chain n skip => exact .inl ⟨r', hclear hr, rfl⟩
  | promoted =>
    rw [register_patchedResponses] at hr
    exact .inl ⟨r', hclear hr, rfl⟩
  | patched a r hserial =>
    rw [storePatched, register_patchedResponses] at hr
    rcases HashMap.lookup_insert_eq_some.1 hr with ⟨rfl, rfl⟩ | ⟨-, hr⟩
    · refine .inr ⟨hserial, fun info hinfo => ?_⟩
      rw [storePatched, register_keys] at hinfo
      exact absurd rfl (HashMap.lookup_erase_eq_some.1 hinfo).1
    · exact .inl ⟨r', hclear hr, rfl⟩
  | updated k' =>
    rw [updateKeyCertChain_patchedResponses_lookup] at hr
    obtain ⟨r, hlookup, rfl⟩ := Option.map_eq_some_iff.1 hr
    refine .inl ⟨r, hlookup, ?_⟩
    split_ifs <;> rfl
  | resigned k' n r kd hrequest hserial =>
    rcases HashMap.lookup_insert_eq_some.1 hr with ⟨rfl, rfl⟩ | ⟨-, hr⟩
    · exact .inr ⟨hserial, fun info hinfo => hinfo⟩
    · exact .inl ⟨r', hr, rfl⟩

/-- The forged key and the re-signed response of one key were made by different hooks. -/
def CertificateAliasCache.MadeApart (c : CertificateAliasCache) : Prop :=
  ∀ k info r, c.keys.lookup k = some info → c.patchedResponses.lookup k = some r →
    info.response.serial ≠ r.serial

theorem HookStep.madeApart (h : HookStep uid request now ids c p c' p') (hc : c.MadeApart)
    (htimed : ∀ o, c.HasEntry o → o.serial < now) : c'.MadeApart := by
  intro k info' r' hk hr
  rcases h.key_origin hk with ⟨info, hinfo, hserial, -⟩ | ⟨hnow, -⟩
  · rcases h.patched_origin hr with ⟨r, hr, hserial'⟩ | ⟨hnow, -⟩
    · rw [← hserial, ← hserial']
      exact hc k info r hinfo hr
    · have hlt : info.response.serial < now := htimed ⟨k, info.response.serial⟩ (.inl ⟨info, hinfo, rfl⟩)
      omega
  · rcases h.patched_origin hr with ⟨r, hr, hserial'⟩ | ⟨-, hkept⟩
    · have hlt : r.serial < now := htimed ⟨k, r.serial⟩ (.inr ⟨r, hr, rfl⟩)
      omega
    · have hlt : info'.response.serial < now :=
        htimed ⟨k, info'.response.serial⟩ (.inl ⟨info', hkept info' hk, rfl⟩)
      omega

end Hook

theorem PersistStep.keeps {ids : Int → Prop} {p p' : PersistenceManager} {pk : PersistedKey}
    (h : PersistStep ids p p') (hpk : p'.Keeps pk) : p.Keeps pk ∨ ids pk.nspace := by
  cases h with
  | kept => exact .inl hpk
  | deleted k =>
    rcases hpk with hpk | hpk
    · exact .inl (.inl hpk)
    · rcases PersistenceManager.mem_execute hpk with hpk | hpk
      · exact .inl (.inr hpk)
      · cases hpk
  | saved new hn =>
    rcases hpk with hpk | hpk
    · exact .inl (.inl hpk)
    · rcases PersistenceManager.mem_execute hpk with hpk | hpk
      · exact .inl (.inr hpk)
      · obtain rfl := PersistTask.saveKey.inj hpk
        exact .inr hn

/-! ## What the hooks make -/

/-- The pair and the certificate are those of a key that the hook forges. -/
def ForgedIn (env : Env) (keyPair : Option KeyPair) (certificate : Option Bytes) : Prop :=
  ∃ kgp request leaf, env.generateKeyPair kgp = some request.keyPair ∧
    env.buildCertificate request = some leaf ∧ keyPair = some request.keyPair ∧ certificate = some leaf.encoded

theorem ForgedIn.vouched {J : Providers} {certificateKey : Bytes → Option Bytes} {replaced : Prop}
    {env : Env} {keyPair : Option KeyPair} {certificate : Option Bytes} (h : ForgedIn env keyPair certificate)
    (hpairs : ∀ params pair, env.generateKeyPair params = some pair → J.Verifies pair)
    (hcarries : CarriesKey certificateKey env) :
    Vouched J certificateKey replaced keyPair certificate := by
  obtain ⟨kgp, request, leaf, hpair, hleaf, rfl, rfl⟩ := h
  exact ⟨request.keyPair, rfl, hpairs kgp _ hpair, .inr (hcarries request leaf hleaf)⟩

theorem putCertificateChain_leaf (m : KeyMetadata) (leaf : Certificate) (rest : List Certificate) :
    (m.putCertificateChain (leaf :: rest)).certificate = some leaf.encoded := by
  cases rest <;> rfl

namespace Daemon

variable {P : Platform} {env : Env} {uid : Int} {level : SecurityLevel} {d : Daemon} {request : Request}

theorem generateKeyPair_forges {ak : Option KeyDescriptor} {kgp : KeyGenParameters} {securityLevel : Int}
    {pair : KeyPair} {chain : List Certificate}
    (h : d.generateKeyPair P env uid ak kgp securityLevel = some (pair, chain)) :
    ∃ request leaf rest, env.generateKeyPair kgp = some request.keyPair ∧
      env.buildCertificate request = some leaf ∧ pair = request.keyPair ∧ chain = leaf :: rest := by
  unfold generateKeyPair at h
  by_cases halgorithm : kgp.algorithm = Algorithm.EC ∨ kgp.algorithm = Algorithm.RSA
  · rw [if_pos halgorithm] at h
    obtain ⟨made, hmade, h⟩ := Option.bind_eq_some_iff.1 h
    obtain ⟨keybox, -, h⟩ := Option.bind_eq_some_iff.1 h
    obtain ⟨first, -, h⟩ := Option.bind_eq_some_iff.1 h
    cases ak with
    | none =>
      obtain ⟨signing, -, h⟩ := Option.bind_eq_some_iff.1 h
      obtain ⟨leaf, hleaf, h⟩ := Option.bind_eq_some_iff.1 h
      obtain ⟨rfl, rfl⟩ := Prod.mk.inj (Option.some.inj h)
      exact ⟨_, leaf, _, hmade, hleaf, rfl, rfl⟩
    | some a =>
      obtain ⟨signing, -, h⟩ := Option.bind_eq_some_iff.1 h
      obtain ⟨leaf, hleaf, h⟩ := Option.bind_eq_some_iff.1 h
      obtain ⟨rfl, rfl⟩ := Prod.mk.inj (Option.some.inj h)
      exact ⟨_, leaf, _, hmade, hleaf, rfl, rfl⟩
  · rw [if_neg halgorithm] at h
    cases h

/-- The keys and the files after a `generateKey` were there before, or are those of the key that it
forges. -/
structure ForgesOne (env : Env) (d d' : Daemon) : Prop where
  keys : ∀ k info, d'.cache.keys.lookup k = some info →
    d.cache.keys.lookup k = some info ∨ ForgedIn env info.keyPair info.response.metadata.certificate
  files : ∀ pk, d'.persistence.Keeps pk → d.persistence.Keeps pk ∨ ForgedIn env pk.keyPair pk.certificate
  operations : d'.operations = d.operations

theorem ForgesOne.of_eq {d' : Daemon} (hkeys : d'.cache.keys = d.cache.keys)
    (hfiles : d'.persistence = d.persistence) (hops : d'.operations = d.operations) : ForgesOne env d d' :=
  ⟨fun _ _ h => .inl (hkeys ▸ h), fun _ h => .inl (hfiles ▸ h), hops⟩

theorem ForgesOne.of_checked {d' : Daemon} (h : ForgesOne env (d.checked env uid) d') : ForgesOne env d d' :=
  ⟨h.keys, h.files, h.operations⟩

theorem ForgesOne.of_resolved {d' : Daemon} (h : ForgesOne env (d.resolved env uid) d') : ForgesOne env d d' :=
  ⟨h.keys, h.files, h.operations⟩

theorem storeGeneratedKey_forgesOne {a : String} {domain : Int} {kgp : KeyGenParameters} {pair : KeyPair}
    {chain : List Certificate} {skipLeafHack : Bool} {ak : Option KeyDescriptor} {securityLevel : Int}
    (h : d.generateKeyPair P env uid ak kgp securityLevel = some (pair, chain)) :
    ForgesOne env d (d.storeGeneratedKey P env level uid a domain kgp pair chain skipLeafHack).1 := by
  obtain ⟨request, leaf, rest, hpair, hleaf, rfl, rfl⟩ := generateKeyPair_forges h
  refine ⟨?_, ?_, rfl⟩
  · intro k info hk
    rcases HashMap.lookup_insert_eq_some.1 hk with ⟨-, rfl⟩ | ⟨-, hk⟩
    · exact .inr ⟨kgp, request, leaf, hpair, hleaf, rfl, putCertificateChain_leaf _ leaf rest⟩
    · exact .inl (HashMap.lookup_erase_eq_some.1 hk).2
  · rintro pk (hpk | hpk)
    · exact .inl (.inl hpk)
    · rcases PersistenceManager.mem_execute hpk with hpk | hpk
      · exact .inl (.inr hpk)
      · obtain rfl := PersistTask.saveKey.inj hpk
        exact .inr ⟨kgp, request, leaf, hpair, hleaf, rfl, putCertificateChain_leaf _ leaf rest⟩

theorem routeGenerateKey_forgesOne (r : KeygenRequest) :
    ForgesOne env d (d.routeGenerateKey P env level uid r).1 := by
  unfold routeGenerateKey
  dsimp only
  split
  · exact .of_eq rfl rfl rfl
  · exact .of_eq rfl rfl rfl
  · exact .of_eq rfl rfl rfl
  · split
    · exact .of_eq rfl rfl rfl
    · next hmade => exact (storeGeneratedKey_forgesOne hmade).of_checked
  · exact ⟨fun _ _ h => .inl (HashMap.lookup_erase_eq_some.1 h).2, fun _ h => .inl h, rfl⟩
  · exact .of_eq rfl rfl rfl

theorem preGenerateKey_forgesOne (kd ak : Option KeyDescriptor) (params : Option (List KeyParameter)) :
    ForgesOne env d (d.preGenerateKey P env level uid kd ak params).1 := by
  have hd := checkGenerateKey_fst P env uid d kd ak params
  unfold preGenerateKey
  split
  · next d₁ _ h =>
    rw [h] at hd
    rcases hd with rfl | rfl <;> exact .of_eq rfl rfl rfl
  · next d₁ r h =>
    rw [h] at hd
    rcases hd with rfl | rfl
    · exact routeGenerateKey_forgesOne r
    · exact (routeGenerateKey_forgesOne r).of_resolved

/-- Only the certificate of the target changes. -/
theorem preUpdateSubcomponent_key {kd : Option KeyDescriptor} {cert chain : Option Bytes} {k : Key} {info' : Info}
    (hk : (d.preUpdateSubcomponent uid kd cert chain).1.cache.keys.lookup k = some info') :
    ∃ info, d.cache.keys.lookup k = some info ∧ info.keyPair = info'.keyPair ∧
      (info.response.metadata.certificate = info'.response.metadata.certificate ∨
        d.Updates uid (.updateSubcomponent kd cert chain) k info'.response.metadata.certificate) := by
  unfold preUpdateSubcomponent at hk
  cases kd with
  | none => exact ⟨info', hk, rfl, .inl rfl⟩
  | some desc =>
    dsimp only at hk
    split at hk
    · exact ⟨info', hk, rfl, .inl rfl⟩
    · exact ⟨info', hk, rfl, .inl rfl⟩
    · next target htarget =>
      split_ifs at hk
      · rw [updateKeyCertChain_keys_lookup] at hk
        obtain ⟨info, hinfo, rfl⟩ := Option.map_eq_some_iff.1 hk
        split_ifs with hsame
        · subst hsame
          exact ⟨info, hinfo, rfl, .inr ⟨desc, chain, rfl, htarget⟩⟩
        · exact ⟨info, hinfo, rfl, .inl rfl⟩
      · exact ⟨info', (HashMap.lookup_erase_eq_some.1 hk).2, rfl, .inl rfl⟩

variable (P env uid d request) in
/-- A forged key after a pre-hook was there before, with its pair and its certificate unless the request
replaces it, or is forged by it. -/
theorem pre_keys {k : Key} {info' : Info}
    (hk : (d.pre P env uid request).1.cache.keys.lookup k = some info') :
    (∃ info, d.cache.keys.lookup k = some info ∧ info.keyPair = info'.keyPair ∧
        (info.response.metadata.certificate = info'.response.metadata.certificate ∨
          d.Updates uid request k info'.response.metadata.certificate)) ∨
      ForgedIn env info'.keyPair info'.response.metadata.certificate := by
  by_cases hgenerate : request.isGenerateKey = true
  · cases request with
    | generateKey level kd ak params =>
      rcases (preGenerateKey_forgesOne (d := d) kd ak params).keys k info' hk with hk | hforged
      · exact .inl ⟨info', hk, rfl, .inl rfl⟩
      · exact .inr hforged
    | _ => cases hgenerate
  · rcases (pre_steps P env request).key_origin hk with
      ⟨info, hinfo, -, hpair, hcert | ⟨kd, cert, chain, rfl⟩⟩ | ⟨-, hrequest⟩
    · exact .inl ⟨info, hinfo, hpair, .inl hcert⟩
    · exact .inl (preUpdateSubcomponent_key hk)
    · exact absurd hrequest hgenerate

variable (P env uid d request) in
theorem pre_keeps {pk : PersistedKey} (hpk : (d.pre P env uid request).1.persistence.Keeps pk) :
    d.persistence.Keeps pk ∨ ForgedIn env pk.keyPair pk.certificate := by
  by_cases hgenerate : request.isGenerateKey = true
  · cases request with
    | generateKey level kd ak params => exact (preGenerateKey_forgesOne (d := d) kd ak params).files pk hpk
    | _ => cases hgenerate
  · exact (pre_persistence P env uid d request).keeps hpk |>.imp_right fun h => absurd h.1 hgenerate

theorem promotePassthrough_keys (a : String) (metadata : Option KeyMetadata) :
    (d.promotePassthrough uid a metadata).cache.keys = d.cache.keys.erase ⟨uid, a⟩ := by
  unfold promotePassthrough
  exact register_keys ..

theorem patchGenerateKeyReply_keys (a : String) (metadata : KeyMetadata) (chain : List Certificate) :
    (d.patchGenerateKeyReply env level uid a metadata chain).1.cache.keys = d.cache.keys.erase ⟨uid, a⟩ := by
  unfold patchGenerateKeyReply
  exact register_keys ..

variable (P env uid d request) in
theorem post_keeps {resultCode : Int} {reply : Option Parcel} {pk : PersistedKey}
    (hpk : (d.post P env uid request resultCode reply).1.persistence.Keeps pk) : d.persistence.Keeps pk :=
  ((post_persistence P env uid d request resultCode reply).keeps hpk).resolve_right id

variable (P env uid d request) in
/-- No post-hook forges a key or changes the certificate of one. -/
theorem post_keys {resultCode : Int} {reply : Option Parcel} {k : Key} {info : Info}
    (hk : (d.post P env uid request resultCode reply).1.cache.keys.lookup k = some info) :
    d.cache.keys.lookup k = some info := by
  have hclear {k' : Key} (h : (d.cache.keys.erase k').lookup k = some info) :
      d.cache.keys.lookup k = some info := (HashMap.lookup_erase_eq_some.1 h).2
  change (d.onPostTransact P env uid request resultCode reply).1.cache.keys.lookup k = some info at hk
  unfold onPostTransact at hk
  split at hk
  · unfold postGenerateKey at hk
    dsimp only at hk
    repeat' split at hk
    all_goals first | exact hk | skip
    · rw [promotePassthrough_keys] at hk
      exact hclear hk
    · rw [patchGenerateKeyReply_keys] at hk
      exact hclear hk
  · unfold postImportKey at hk
    split at hk
    · exact hclear hk
    · exact hk
  · unfold postDeleteKey at hk
    repeat' split at hk
    all_goals first | exact hk | exact hclear hk
  · unfold postUpdateSubcomponent at hk
    repeat' split at hk
    all_goals first | exact hk | exact hclear hk
  · unfold postGrant at hk
    repeat' split at hk
    all_goals exact hk
  · unfold postGetKeyEntry patchLeaf at hk
    dsimp only at hk
    repeat' split at hk
    all_goals exact hk
  · unfold postListEntries at hk
    split at hk <;> exact hk
  · exact hk

end Daemon

/-! ## Operations that sign -/

theorem bind_eq_ok {ε α β : Type} {x : Except ε α} {f : α → Except ε β} {b : β} (h : x >>= f = .ok b) :
    ∃ a, x = .ok a ∧ f a = .ok b := by
  cases x with
  | error e => cases h
  | ok a => exact ⟨a, rfl, h⟩

theorem keyPair_of_requireKeyPair {info : Info} {pair : KeyPair}
    (h : SoftwareOperationBinder.requireKeyPair info = .ok pair) : info.keyPair = some pair := by
  unfold SoftwareOperationBinder.requireKeyPair at h
  split at h
  · next p hp => rw [hp, Except.ok.inj h]
  · cases h

theorem buildCipher_ne_signature {op : OpRequest} {digest purpose : Int} {padding blockMode : Option Int}
    {info : Info} {algorithm : String} {key : Bytes} {verify : Bool} :
    SoftwareOperationBinder.buildCipher op digest padding blockMode info purpose ≠
      .ok (.signature algorithm key verify) := by
  intro h
  unfold SoftwareOperationBinder.buildCipher at h
  dsimp only [bind, Except.bind] at h
  repeat' split at h
  all_goals cases h

/-- An engine that signs has the private key of the pair. -/
theorem selectEngine_signature {info : Info} {op : OpRequest} {algorithm : String} {key : Bytes}
    (h : SoftwareOperationBinder.selectEngine info op = .ok (.signature algorithm key false)) :
    ∃ pair, info.keyPair = some pair ∧ key = pair.privateKey := by
  unfold SoftwareOperationBinder.selectEngine at h
  dsimp only [bind, Except.bind] at h
  repeat' split at h
  all_goals first
    | exact absurd h buildCipher_ne_signature
    | (cases h; done)
    | skip
  all_goals
    next pair hpair =>
    cases h
    exact ⟨pair, keyPair_of_requireKeyPair hpair, rfl⟩

theorem call_engine (op : SoftwareOperationBinder) (u : HashMap Key Int) (call : SoftwareOperationBinder.Call) :
    (op.call u call).1.engine = op.engine := by
  cases call with
  | update => rfl
  | abort => rfl
  | updateAad aadInput engine =>
    unfold SoftwareOperationBinder.call SoftwareOperationBinder.updateAad
    dsimp only
    repeat' split
    all_goals rfl
  | finish input engine =>
    unfold SoftwareOperationBinder.call SoftwareOperationBinder.finish
    dsimp only
    repeat' split
    all_goals rfl

namespace Daemon

variable {P : Platform} {env : Env} {uid : Int} {d d' : Daemon} {request : Request} {o : Origin} {pair : KeyPair}

/-- The operation belongs to a generation of a forged key, and if it signs it has the private key. -/
structure OperatesOn (d : Daemon) (op : SoftwareOperationBinder) (info : Info) : Prop where
  lookup : d.cache.keys.lookup op.origin.key = some info
  serial : info.response.serial = op.origin.serial
  signs : ∀ algorithm key, op.engine = .signature algorithm key false →
    ∃ pair, info.keyPair = some pair ∧ key = pair.privateKey

variable (P env uid d) in
theorem preCreateOperation_operatesOn (kd : Option KeyDescriptor) (opParams : List KeyParameter) (force : Bool) :
    (d.preCreateOperation P env uid kd opParams force).1 = d ∨
      ∃ op info, d.OperatesOn op info ∧ (d.preCreateOperation P env uid kd opParams force).1 =
        { d with operations := d.operations ++ [op] } := by
  unfold preCreateOperation
  split
  · exact .inl rfl
  · split
    · exact .inl rfl
    · next owner info hfound =>
      dsimp only
      repeat' split
      all_goals first | exact .inl rfl | skip
      next op hcreate =>
      refine .inr ⟨op, info, ?_, rfl⟩
      unfold SoftwareOperationBinder.create at hcreate
      obtain ⟨engine, hengine, hcreate⟩ := bind_eq_ok hcreate
      split at hcreate
      · cases hcreate
      · obtain rfl := Except.ok.inj hcreate
        refine ⟨(findGeneratedOwner_eq_some hfound).2, rfl, ?_⟩
        rintro algorithm key rfl
        exact selectEngine_signature hengine

variable (P env uid d request) in
theorem pre_operatesOn :
    (d.pre P env uid request).1.operations = d.operations ∨
      ∃ op info, d.OperatesOn op info ∧
        (d.pre P env uid request).1 = { d with operations := d.operations ++ [op] }.tick := by
  show (d.onPreTransact P env uid request).1.operations = _ ∨ ∃ op info, d.OperatesOn op info ∧
    (d.onPreTransact P env uid request).1.tick = _
  cases request with
  | createOperation level kd opParams force =>
    rcases preCreateOperation_operatesOn P env uid d kd opParams force with h | ⟨op, info, hop, h⟩
    · exact .inl (by rw [onPreTransact, h])
    · exact .inr ⟨op, info, hop, by rw [onPreTransact, h]⟩
  | generateKey level kd ak params => exact .inl (preGenerateKey_forgesOne kd ak params).operations
  | _ => exact .inl (onPreTransact_kept P env uid d (by simp) (by simp)).2

/-! ## Generations -/

/-- The generation was made by a hook that has run, and whatever of it is there has the pair. -/
structure GenerationHas (d : Daemon) (o : Origin) (pair : KeyPair) : Prop where
  made : o.serial < d.clock
  keyPair : ∀ info, d.cache.keys.lookup o.key = some info → info.response.serial = o.serial →
    info.keyPair = some pair
  notPatched : ∀ r, d.cache.patchedResponses.lookup o.key = some r → r.serial ≠ o.serial

theorem GenerationHas.hook {ids : Int → Prop} (h : d.GenerationHas o pair)
    (hs : d.Steps uid request ids d.clock d') (hc : d'.clock = d.clock + 1) : d'.GenerationHas o pair := by
  have hmade := h.made
  refine ⟨by omega, ?_, ?_⟩
  · intro info' hk hserial'
    rcases hs.key_origin hk with ⟨info, hinfo, hserial, hpair, -⟩ | ⟨hnow, -⟩
    · rw [← hpair]
      exact h.keyPair info hinfo (hserial.trans hserial')
    · omega
  · intro r' hr hserial'
    rcases hs.patched_origin hr with ⟨r, hr, hserial⟩ | ⟨hnow, -⟩
    · exact h.notPatched r hr (hserial.trans hserial')
    · omega

theorem GenerationHas.of_empty (h : o.serial < d.clock) (hcache : d.cache = {}) : d.GenerationHas o pair := by
  refine ⟨h, fun info hk => ?_, fun r hr => ?_⟩
  · rw [hcache] at hk
    cases hk
  · rw [hcache] at hr
    cases hr

/-- A restored key has the pair and the certificate of its file and is new. -/
theorem restoreKey_key {level : SecurityLevel} {pk : PersistedKey} {k : Key} {info : Info}
    (hk : (d.restoreKey P env level pk).cache.keys.lookup k = some info) :
    d.cache.keys.lookup k = some info ∨ info.keyPair = pk.keyPair ∧
      info.response.metadata.certificate = pk.certificate ∧ info.response.serial = d.clock := by
  rcases HashMap.lookup_insert_eq_some.1 hk with ⟨-, rfl⟩ | ⟨-, hk⟩
  · right
    unfold PersistedKey.certificate
    dsimp only
    cases pk.metadataBytes with
    | some m => exact ⟨rfl, rfl, rfl⟩
    | none =>
      refine ⟨rfl, ?_, rfl⟩
      cases pk.chain with
      | nil => rfl
      | cons leaf rest => exact putCertificateChain_leaf _ leaf rest
  · exact .inl hk

theorem GenerationHas.restoreKey {level : SecurityLevel} {pk : PersistedKey} (h : d.GenerationHas o pair) :
    (d.restoreKey P env level pk).GenerationHas o pair := by
  refine ⟨h.made, ?_, h.notPatched⟩
  intro info hk hserial
  rcases restoreKey_key hk with hk | ⟨-, -, hnow⟩
  · exact h.keyPair info hk hserial
  · have hmade := h.made
    omega

theorem GenerationHas.congr (h : d.GenerationHas o pair) (hclock : d'.clock = d.clock)
    (hkeys : d'.cache.keys = d.cache.keys) (hpatched : d'.cache.patchedResponses = d.cache.patchedResponses) :
    d'.GenerationHas o pair := by
  refine ⟨hclock ▸ h.made, ?_, ?_⟩
  · rw [hkeys]
    exact h.keyPair
  · rw [hpatched]
    exact h.notPatched

theorem GenerationHas.step (h : d.GenerationHas o pair) (hs : DaemonStep P d d') : d'.GenerationHas o pair := by
  cases hs with
  | idle => exact h
  | pre env uid request => exact h.hook (pre_steps P env request) (pre_clock ..)
  | post env uid request resultCode reply =>
    exact h.hook (post_steps P env request resultCode reply) (post_clock ..)
  | operate op call =>
    unfold operate
    split <;> exact h.congr rfl rfl rfl
  | targetChanged | packageManagerDied | persist => exact h.congr rfl rfl rfl
  | keyboxChanged => exact .of_empty h.made rfl
  | restart => exact .of_empty (Nat.lt_succ_of_lt h.made) rfl
  | loadPersistedKeys level env =>
    have hloaded : (d.loadPersistedKeys P env level).GenerationHas o pair :=
      loadPersistedKeys_invariant (I := fun d => d.GenerationHas o pair) h fun _ _ _ hd => hd.restoreKey
    exact ⟨Nat.lt_succ_of_lt hloaded.made, hloaded.keyPair, hloaded.notPatched⟩
  | initializeConfig modes keyboxes =>
    cases modes <;> cases keyboxes
    · exact h
    · exact .of_empty h.made rfl
    · exact h.congr rfl rfl rfl
    · exact .of_empty h.made rfl

/-! ## The invariant -/

variable {J : Providers} {certificateKey : Bytes → Option Bytes} {replaced : Key → Option Bytes → Prop}

/-- Every forged key and every key file has a pair that signs with a certificate for it, and every operation
that signs has the private key of the generation it was created from. -/
structure KeysVouched (J : Providers) (certificateKey : Bytes → Option Bytes)
    (replaced : Key → Option Bytes → Prop) (d : Daemon) : Prop where
  timed : d.Timed
  apart : d.cache.MadeApart
  keys : ∀ k info, d.cache.keys.lookup k = some info →
    Vouched J certificateKey (replaced k info.response.metadata.certificate) info.keyPair
      info.response.metadata.certificate
  files : ∀ pk, d.persistence.Keeps pk → Vouched J certificateKey False pk.keyPair pk.certificate
  operations : ∀ op ∈ d.operations, ∀ algorithm key, op.engine = .signature algorithm key false →
    ∃ pair, J.Verifies pair ∧ key = pair.privateKey ∧ d.GenerationHas op.origin pair

variable (h : d.KeysVouched J certificateKey replaced)

include h

/-- A new operation has the private key of a generation that is there. -/
theorem KeysVouched.generationHas {op : SoftwareOperationBinder} {info : Info} (hop : d.OperatesOn op info)
    {algorithm : String} {key : Bytes} (hengine : op.engine = .signature algorithm key false) :
    ∃ pair, J.Verifies pair ∧ key = pair.privateKey ∧ d.GenerationHas op.origin pair := by
  obtain ⟨pair, hpair, hkey⟩ := hop.signs algorithm key hengine
  obtain ⟨pair', hpair', hverifies, -⟩ := h.keys _ info hop.lookup
  cases hpair.symm.trans hpair'
  refine ⟨pair, hverifies, hkey, h.timed op.origin (.inl ⟨info, hop.lookup, hop.serial⟩), ?_, ?_⟩
  · intro info' hk _
    cases hop.lookup.symm.trans hk
    exact hpair
  · intro r hr
    rw [← hop.serial]
    exact (h.apart _ info r hop.lookup hr).symm

theorem KeysVouched.pre (hreplaced : ∀ k certificate, d.Updates uid request k certificate → replaced k certificate)
    (hpairs : ∀ params pair, env.generateKeyPair params = some pair → J.Verifies pair)
    (hcarries : CarriesKey certificateKey env) :
    (d.pre P env uid request).1.KeysVouched J certificateKey replaced := by
  have hsteps : d.Steps uid request _ d.clock (d.pre P env uid request).1 := pre_steps P env request
  refine ⟨h.timed.hook hsteps (pre_clock ..), hsteps.madeApart h.apart h.timed, ?_, ?_, ?_⟩
  · intro k info' hk
    rcases pre_keys P env uid d request hk with ⟨info, hinfo, hpair, hcert⟩ | hforged
    · obtain ⟨pair, hpair', hverifies, hvouched⟩ := h.keys k info hinfo
      refine ⟨pair, hpair.symm.trans hpair', hverifies, ?_⟩
      rcases hcert with hcert | hupdates
      · exact hcert ▸ hvouched
      · exact .inl (hreplaced k _ hupdates)
    · exact hforged.vouched hpairs hcarries
  · intro pk hpk
    rcases pre_keeps P env uid d request hpk with hpk | hforged
    · exact h.files pk hpk
    · exact hforged.vouched hpairs hcarries
  · intro op hop algorithm key hengine
    have hhook (pair : KeyPair) : d.GenerationHas op.origin pair →
        (d.pre P env uid request).1.GenerationHas op.origin pair := fun hg => hg.hook hsteps (pre_clock ..)
    have hold : op ∈ d.operations ∨ ∃ info, d.OperatesOn op info := by
      rcases pre_operatesOn P env uid d request with hops | ⟨op', info, hop', hstate⟩
      · exact .inl (hops ▸ hop)
      · rw [hstate] at hop
        rcases List.mem_append.1 hop with hop | hop
        · exact .inl hop
        · obtain rfl := List.mem_singleton.1 hop
          exact .inr ⟨info, hop'⟩
    rcases hold with hop | ⟨info, hop⟩
    · obtain ⟨pair, hverifies, hkey, hg⟩ := h.operations op hop algorithm key hengine
      exact ⟨pair, hverifies, hkey, hhook pair hg⟩
    · obtain ⟨pair, hverifies, hkey, hg⟩ := h.generationHas hop hengine
      exact ⟨pair, hverifies, hkey, hhook pair hg⟩

theorem KeysVouched.post {resultCode : Int} {reply : Option Parcel} :
    (d.post P env uid request resultCode reply).1.KeysVouched J certificateKey replaced := by
  have hsteps : d.Steps uid request _ d.clock (d.post P env uid request resultCode reply).1 :=
    post_steps P env request resultCode reply
  refine ⟨h.timed.hook hsteps (post_clock ..), hsteps.madeApart h.apart h.timed, ?_, ?_, ?_⟩
  · exact fun k info hk => h.keys k info (post_keys P env uid d request hk)
  · exact fun pk hpk => h.files pk (post_keeps P env uid d request hpk)
  · intro op hop algorithm key hengine
    rw [post_operations] at hop
    obtain ⟨pair, hverifies, hkey, hg⟩ := h.operations op hop algorithm key hengine
    exact ⟨pair, hverifies, hkey, hg.hook hsteps (post_clock ..)⟩

/-- A step that keeps the keys, and of the operations what they are for. -/
theorem KeysVouched.congr (hclock : d'.clock = d.clock) (hkeys : d'.cache.keys = d.cache.keys)
    (hpatched : d'.cache.patchedResponses = d.cache.patchedResponses)
    (hfiles : ∀ pk, d'.persistence.Keeps pk → ∃ params, d.persistence.Keeps { pk with params := params })
    (hops : ∀ op' ∈ d'.operations, ∃ op ∈ d.operations, op.engine = op'.engine ∧ op.origin = op'.origin) :
    d'.KeysVouched J certificateKey replaced := by
  refine ⟨?_, ?_, ?_, ?_, ?_⟩
  · intro o ho
    rw [hclock]
    refine h.timed o ?_
    unfold HasEntry at ho ⊢
    rw [hkeys, hpatched] at ho
    exact ho
  · intro k info r hk hr
    rw [hkeys] at hk
    rw [hpatched] at hr
    exact h.apart k info r hk hr
  · rw [hkeys]
    exact h.keys
  · intro pk hpk
    obtain ⟨params, hpk⟩ := hfiles pk hpk
    exact h.files { pk with params := params } hpk
  · intro op' hop' algorithm key hengine
    obtain ⟨op, hop, hsame, horigin⟩ := hops op' hop'
    obtain ⟨pair, hverifies, hkey, hg⟩ := h.operations op hop algorithm key (hsame.trans hengine)
    exact ⟨pair, hverifies, hkey, horigin ▸ hg.congr hclock hkeys hpatched⟩

/-- A step that drops all keys. -/
theorem KeysVouched.cleared (hcache : d'.cache = {}) (hclock : d.clock ≤ d'.clock)
    (hfiles : ∀ pk, d'.persistence.Keeps pk → d.persistence.Keeps pk)
    (hops : ∀ op ∈ d'.operations, op ∈ d.operations) : d'.KeysVouched J certificateKey replaced := by
  refine ⟨?_, ?_, ?_, fun pk hpk => h.files pk (hfiles pk hpk), ?_⟩
  · intro o ho
    rw [hcache] at ho
    exact absurd ho not_hasEntry_empty
  · intro k info r hk
    rw [hcache] at hk
    cases hk
  · intro k info hk
    rw [hcache] at hk
    cases hk
  · intro op hop algorithm key hengine
    obtain ⟨pair, hverifies, hkey, hg⟩ := h.operations op (hops op hop) algorithm key hengine
    exact ⟨pair, hverifies, hkey, .of_empty (hg.made.trans_le hclock) hcache⟩

omit h in
theorem keeps_clearAll {p : PersistenceManager} {pk : PersistedKey} (hpk : p.clearAll.Keeps pk) : p.Keeps pk := by
  rcases hpk with hpk | hpk
  · exact .inl hpk
  · rcases PersistenceManager.mem_execute hpk with hpk | hpk
    · exact .inr hpk
    · cases hpk

theorem KeysVouched.updateKeyBox (keyboxes : HashMap String KeyBox) :
    (d.updateKeyBox keyboxes).KeysVouched J certificateKey replaced :=
  h.cleared rfl le_rfl (fun _ hpk => keeps_clearAll hpk) fun _ hop => hop

theorem KeysVouched.operate (i : ℕ) (call : SoftwareOperationBinder.Call) :
    (d.operate i call).KeysVouched J certificateKey replaced := by
  unfold Daemon.operate
  split
  · exact h
  · next op hop =>
    refine h.congr rfl rfl rfl (fun pk hpk => ⟨pk.params, hpk⟩) fun op' hop' => ?_
    rcases List.mem_or_eq_of_mem_set hop' with hop' | rfl
    · exact ⟨op', hop', rfl, rfl⟩
    · have hkept := (op.call_cases d.cache.usageRemaining call).1.1
      exact ⟨op, List.mem_of_getElem? hop, (call_engine op d.cache.usageRemaining call).symm, hkept.symm⟩

omit h in
/-- While the files are loaded, the keys are old or vouched for by their files. -/
structure Loading (J : Providers) (certificateKey : Bytes → Option Bytes) (d d' : Daemon) : Prop where
  clock : d'.clock = d.clock
  operations : d'.operations = d.operations
  persistence : d'.persistence = d.persistence
  patched : d'.cache.patchedResponses = d.cache.patchedResponses
  keys : ∀ k info, d'.cache.keys.lookup k = some info → d.cache.keys.lookup k = some info ∨
    info.response.serial = d.clock ∧
      Vouched J certificateKey False info.keyPair info.response.metadata.certificate

theorem KeysVouched.loading (level : SecurityLevel) (env : Env) :
    Loading J certificateKey d (d.loadPersistedKeys P env level) := by
  refine loadPersistedKeys_invariant (I := Loading J certificateKey d)
    ⟨rfl, rfl, rfl, rfl, fun _ _ hk => .inl hk⟩ ?_
  rintro d' pk hpk ⟨hclock, hops, hfiles, hpatched, hkeys⟩
  refine ⟨hclock, hops, hfiles, hpatched, fun k info hk => ?_⟩
  rcases restoreKey_key hk with hk | ⟨hpair, hcert, hnow⟩
  · exact hkeys k info hk
  · obtain ⟨⟨k', pk'⟩, hentry, rfl⟩ := List.mem_map.1 hpk
    rw [hpair, hcert]
    exact .inr ⟨hnow.trans hclock, h.files pk' (.inl ⟨k', HashMap.lookup_eq_some_iff.2 hentry⟩)⟩

theorem KeysVouched.loadPersistedKeys (level : SecurityLevel) (env : Env) :
    (d.loadPersistedKeys P env level).tick.KeysVouched J certificateKey replaced := by
  obtain ⟨-, hops, hfiles, hpatched, hkeys⟩ := h.loading (P := P) level env
  refine ⟨h.timed.step (P := P) (.loadPersistedKeys level env), ?_, ?_, ?_, ?_⟩
  · intro k info r hk hr
    change (d.loadPersistedKeys P env level).cache.patchedResponses.lookup k = some r at hr
    rw [hpatched] at hr
    rcases hkeys k info hk with hk | ⟨hnow, -⟩
    · exact h.apart k info r hk hr
    · have hlt : r.serial < d.clock := h.timed ⟨k, r.serial⟩ (.inr ⟨r, hr, rfl⟩)
      omega
  · intro k info hk
    rcases hkeys k info hk with hk | ⟨-, hvouched⟩
    · exact h.keys k info hk
    · obtain ⟨pair, hpair, hverifies, hcertificate⟩ := hvouched
      exact ⟨pair, hpair, hverifies, .inr (hcertificate.resolve_left id)⟩
  · intro pk hpk
    change (d.loadPersistedKeys P env level).persistence.Keeps pk at hpk
    rw [hfiles] at hpk
    exact h.files pk hpk
  · intro op hop algorithm key hengine
    change op ∈ (d.loadPersistedKeys P env level).operations at hop
    rw [hops] at hop
    obtain ⟨pair, hverifies, hkey, hg⟩ := h.operations op hop algorithm key hengine
    exact ⟨pair, hverifies, hkey, hg.step (P := P) (.loadPersistedKeys level env)⟩

end Daemon

/-! ## Runs -/

section Run

variable {P : Platform} {J : Providers} {certificateKey : Bytes → Option Bytes} {w : World} {es es' : List Event}

theorem keysVouched_next {replaced : Key → Option Bytes → Prop} {e : Event}
    (h : w.daemon.KeysVouched J certificateKey replaced) (hmakes : e.MakesKeys J certificateKey)
    (hreplaced : ∀ k certificate, w.Replaces k certificate e → replaced k certificate) :
    (w.next P e).daemon.KeysVouched J certificateKey replaced := by
  have hkept (pk : PersistedKey) (hpk : w.daemon.persistence.Keeps pk) :
      ∃ params, w.daemon.persistence.Keeps { pk with params := params } := ⟨pk.params, hpk⟩
  have hsame (op : SoftwareOperationBinder) (hop : op ∈ w.daemon.operations) :
      ∃ op' ∈ w.daemon.operations, op'.engine = op.engine ∧ op'.origin = op.origin := ⟨op, hop, rfl, rfl⟩
  cases e with
  | arrive id uid request env =>
    rcases w.arrive_daemon P id uid request env with hd | hd
    · rw [World.next, hd]
      exact h
    · rw [World.next, hd]
      obtain ⟨hpairs, hcarries⟩ := hmakes env rfl
      exact h.pre hreplaced hpairs hcarries
  | complete id resultCode reply env =>
    rcases w.complete_daemon P id resultCode reply env with hd | ⟨t, -, hd⟩
    · rw [World.next, hd]
      exact h
    · rw [World.next, hd]
      exact h.post
  | abandon id => exact h
  | operate op call => exact h.operate op call
  | targetChanged modes => exact h.congr rfl rfl rfl hkept hsame
  | keyboxChanged keyboxes => exact h.updateKeyBox keyboxes
  | packageManagerDied => exact h.congr rfl rfl rfl hkept hsame
  | persist => exact h.congr rfl rfl rfl (fun pk hpk => PersistenceManager.keeps_step hpk) hsame
  | restart =>
    exact h.cleared rfl (Nat.le_succ _) (fun pk hpk => hpk.imp_right fun hq => absurd hq List.not_mem_nil) fun op hop =>
      absurd hop List.not_mem_nil
  | loadPersistedKeys level env =>
    dsimp only [World.next]
    split_ifs
    · exact h.loadPersistedKeys level env
    · exact h
  | initializeConfig modes keyboxes =>
    dsimp only [World.next]
    split_ifs
    · have hmodes (modes : HashMap String Mode) :
          (w.daemon.updateTargetPackages modes).KeysVouched J certificateKey replaced :=
        h.congr rfl rfl rfl hkept hsame
      cases modes with
      | none =>
        cases keyboxes with
        | none => exact h
        | some keyboxes => exact h.updateKeyBox keyboxes
      | some modes =>
        cases keyboxes with
        | none => exact hmodes modes
        | some keyboxes => exact (hmodes modes).updateKeyBox keyboxes
    · exact h

theorem keysVouched_run (hmakes : ∀ e ∈ es, e.MakesKeys J certificateKey) :
    (World.run P {} es).daemon.KeysVouched J certificateKey (World.ReplacedIn P es) := by
  have hsteps : Machine.AllSteps (World.next P)
      (fun w e => e ∈ es ∧ ∀ k certificate, w.Replaces k certificate e → World.ReplacedIn P es k certificate)
      {} es := by
    rintro before e after rfl
    exact ⟨by simp, fun k certificate hreplaces => ⟨before, e, after, rfl, hreplaces⟩⟩
  refine hsteps.invariant
    (I := fun w : World => w.daemon.KeysVouched J certificateKey (World.ReplacedIn P es)) ?_ ?_
  · refine ⟨fun o ho => absurd ho Daemon.not_hasEntry_empty, ?_, ?_, ?_, ?_⟩
    · intro k info r hk
      cases hk
    · intro k info hk
      cases hk
    · rintro pk (⟨k, hpk⟩ | hpk) <;> cases hpk
    · intro op hop
      cases hop
  · intro w e h ⟨he, hreplaced⟩
    exact keysVouched_next h (hmakes e he) hreplaced

end Run

/-! ## Reading a key -/

namespace Daemon

variable {P : Platform} {env : Env} {uid : Int} {d : Daemon} {desc : KeyDescriptor} {o : Origin}
  {r : KeyEntryResponse}

/-- The entry of the cache is the response. -/
def Caches (d : Daemon) (o : Origin) (r : KeyEntryResponse) : Prop :=
  r.serial = o.serial ∧ ((∃ info, d.cache.keys.lookup o.key = some info ∧ info.response = r) ∨
    d.cache.patchedResponses.lookup o.key = some r)

theorem caches_generated {k : Key}
    (h : ((d.cache.findGeneratedOwner uid desc).map fun o => (o.1, o.2.response)) = some (k, r)) :
    d.Caches ⟨k, r.serial⟩ r := by
  obtain ⟨⟨k', info⟩, hfound, heq⟩ := Option.map_eq_some_iff.1 h
  obtain ⟨rfl, rfl⟩ := Prod.mk.inj heq
  exact ⟨rfl, .inl ⟨info, (findGeneratedOwner_eq_some hfound).2, rfl⟩⟩

theorem caches_patched {k : Key} (h : d.cache.resolvePatchedOwner uid desc = some (k, r)) :
    d.Caches ⟨k, r.serial⟩ r :=
  ⟨rfl, .inr (resolvePatchedOwner_eq_some h).2⟩

theorem caches_cachedOwner {k : Key} (h : d.cachedOwner uid desc = some (k, r)) :
    d.Caches ⟨k, r.serial⟩ r := by
  rcases Option.or_eq_some_iff.1 h with h | ⟨-, h⟩
  · exact caches_generated h
  · exact caches_patched h

theorem caches_cachedResponse {k : Key} (h : d.cache.cachedResponse k = some r) :
    d.Caches ⟨k, r.serial⟩ r := by
  rcases Option.or_eq_some_iff.1 h with h | ⟨-, h⟩
  · obtain ⟨info, hinfo, rfl⟩ := Option.map_eq_some_iff.1 h
    exact ⟨rfl, .inl ⟨info, hinfo, rfl⟩⟩
  · exact ⟨rfl, .inr h⟩

theorem caches_ownedResponse {k : Key} (h : d.ownedResponse uid (some desc) = some (k, r)) :
    d.Caches ⟨k, r.serial⟩ r := by
  rcases Option.or_eq_some_iff.1 h with h | ⟨-, h⟩
  · obtain ⟨k', -, h⟩ := Option.bind_eq_some_iff.1 h
    obtain ⟨r', hr', h⟩ := Option.map_eq_some_iff.1 h
    obtain ⟨rfl, rfl⟩ := Prod.mk.inj h
    exact ⟨rfl, .inr hr'⟩
  · exact caches_generated h

theorem serveCached_entry {cached : Option (Key × KeyEntryResponse)} {otherwise : Result} {code : Int}
    (hn : otherwise.origin = none)
    (h : serveCached cached otherwise = .OverrideReply code (.entry r) (some o)) :
    cached = some (o.key, r) ∧ o = ⟨o.key, r.serial⟩ := by
  unfold serveCached at h
  split at h
  · next k r' =>
    cases h
    exact ⟨rfl, rfl⟩
  · rw [h] at hn
    cases hn

theorem preGetKeyEntryByMode_caches {code : Int}
    (h : (d.preGetKeyEntryByMode env uid desc).2 = .OverrideReply code (.entry r) (some o)) : d.Caches o r := by
  unfold preGetKeyEntryByMode at h
  dsimp only at h
  split_ifs at h
  · obtain ⟨hcached, ho⟩ := serveCached_entry rfl h
    exact ho ▸ caches_cachedOwner hcached
  · obtain ⟨hcached, ho⟩ := serveCached_entry rfl h
    exact ho ▸ caches_generated hcached
  · obtain ⟨hcached, ho⟩ := serveCached_entry rfl h
    exact ho ▸ caches_patched hcached
  · obtain ⟨hcached, ho⟩ := serveCached_entry rfl h
    exact ho ▸ caches_cachedOwner hcached

theorem preGetKeyEntry_caches {kd : Option KeyDescriptor} {code : Int}
    (h : (d.preGetKeyEntry env uid kd).2 = .OverrideReply code (.entry r) (some o)) : d.Caches o r := by
  unfold preGetKeyEntry at h
  split at h
  · split at h
    · cases h
    · split at h
      · exact preGetKeyEntryByMode_caches h
      · split at h
        · split at h
          · exact preGetKeyEntryByMode_caches h
          · next r' hr' =>
            split at h
            · cases h
              exact caches_cachedResponse hr'
            · exact preGetKeyEntryByMode_caches h
        · cases h
  · cases h

theorem postGetKeyEntry_caches {kd : Option KeyDescriptor} {reply : Parcel} {code : Int}
    (h : (d.postGetKeyEntry env uid P kd reply).2 = .OverrideReply code (.entry r) (some o)) : d.Caches o r := by
  unfold postGetKeyEntry at h
  split at h
  · cases h
  · dsimp only at h
    split at h
    · cases h
    · obtain ⟨howned, ho⟩ := serveCached_entry rfl h
      cases kd with
      | none => cases howned
      | some desc => exact ho ▸ caches_ownedResponse howned
    · unfold patchLeaf at h
      repeat' split at h
      all_goals cases h

/-- A `getKeyEntry` is answered with the entry, before or after the real call. -/
def ReadsEntry (P : Platform) (d : Daemon) (o : Origin) (r : KeyEntryResponse) : Prop :=
  ∃ env uid kd code, (d.pre P env uid (.getKeyEntry kd)).2 = .OverrideReply code (.entry r) (some o) ∨
    ∃ resultCode reply, (d.post P env uid (.getKeyEntry kd) resultCode reply).2 =
      .OverrideReply code (.entry r) (some o)

theorem ReadsEntry.caches (h : d.ReadsEntry P o r) : d.Caches o r := by
  obtain ⟨env, uid, kd, code, h | ⟨resultCode, reply, h⟩⟩ := h
  · exact preGetKeyEntry_caches h
  · cases reply with
    | none => cases h
    | some reply => exact postGetKeyEntry_caches h

end Daemon

/-- What an operation gives a client as a signature is the signature of all data. -/
theorem sign_of_reply {J : Providers} {op : SoftwareOperationBinder} {algorithm : String} {key : Bytes}
    (hengine : op.engine = .signature algorithm key false) {rs : List (HashMap Key Int × OperationRequest)}
    {u : HashMap Key Int} {input given : Option Bytes} {signature : Bytes}
    (h : ((SoftwareOperation.conversation J op rs).1.call u (.finish input given)).2.2 = .ok (some signature)) :
    J.sign algorithm key ((SoftwareOperation.conversation J op rs).2.data ++ input.getD []) = .ok signature := by
  have hfinish := SoftwareOperation.finish_of_reply h
  have htook := SoftwareOperation.took_conversation J op rs
  have hsetup := (SoftwareOperation.setup_conversation J op rs).trans hengine
  unfold Engine.Took at htook
  unfold Engine.finish at hfinish
  rw [hsetup] at htook hfinish
  rw [htook.1] at hfinish
  dsimp only at hfinish
  cases hsign : J.sign algorithm key ((SoftwareOperation.conversation J op rs).2.data ++ input.getD []) with
  | error t =>
    rw [hsign] at hfinish
    cases hfinish
  | ok s =>
    rw [hsign] at hfinish
    cases hfinish
    rfl

/-- A signature that an operation on a forged key gives, however many clients call it and whatever parts they
send, verifies over all the data under the certificate that is read, then or later, from the entry of the same
generation of the key, unless an `updateSubcomponent` has put that certificate to the key. -/
theorem forged_signature_verifies {P : Platform} {J : Providers} {certificateKey : Bytes → Option Bytes}
    {es es' : List Event} (hmakes : ∀ e ∈ es ++ es', e.MakesKeys J certificateKey) {op : SoftwareOperationBinder}
    (hop : op ∈ (World.run P {} es).daemon.operations) {algorithm : String} {key : Bytes}
    (hengine : op.engine = .signature algorithm key false) {rs : List (HashMap Key Int × OperationRequest)}
    {u : HashMap Key Int} {input given : Option Bytes} {signature : Bytes}
    (hreply : ((SoftwareOperation.conversation J op rs).1.call u (.finish input given)).2.2 = .ok (some signature))
    {r : KeyEntryResponse} (hread : (World.run P {} (es ++ es')).daemon.ReadsEntry P op.origin r) :
    World.ReplacedIn P (es ++ es') op.origin.key r.metadata.certificate ∨
      ∃ publicKey, r.metadata.certificate.bind certificateKey = some publicKey ∧
        J.verify algorithm publicKey ((SoftwareOperation.conversation J op rs).2.data ++ input.getD []) signature =
          .ok true := by
  have hbefore := keysVouched_run (P := P) fun e he => hmakes e (List.mem_append_left es' he)
  obtain ⟨pair, hverifies, rfl, hgeneration⟩ := hbefore.operations op hop algorithm key hengine
  have hlater : (World.run P {} (es ++ es')).daemon.GenerationHas op.origin pair := by
    rw [World.run, Machine.run_append]
    exact World.run_daemon (I := fun d => d.GenerationHas op.origin pair) P (World.run P {} es)
      (fun _ _ h hs => h.step hs) hgeneration es'
  obtain ⟨hserial, ⟨info, hinfo, rfl⟩ | hpatched⟩ := hread.caches
  · obtain ⟨pair', hpair', -, hreplaced | hcertificate⟩ := (keysVouched_run (P := P) hmakes).keys _ info hinfo
    · exact .inl hreplaced
    · cases (hlater.keyPair info hinfo hserial).symm.trans hpair'
      exact .inr ⟨_, hcertificate, hverifies algorithm _ signature (sign_of_reply hengine hreply)⟩
  · exact absurd hserial (hlater.notPatched r hpatched)

namespace Demo

/-- A certificate is the public key that it is for. -/
def bareEnv (n : Int) : Env := { env n with buildCertificate := fun r => some ⟨r.keyPair.publicKey⟩ }

/-- The owner makes an attested signing key and starts to sign with it. -/
def generateAndSign : List Event :=
  start .GENERATE .AUTO ++ [.arrive 1 owner (generate ecParams) (bareEnv 5),
    .arrive 2 owner (.createOperation .trustedEnvironment (some byAlias)
      [⟨Tag.PURPOSE, .keyPurpose KeyPurpose.SIGN⟩] false) (bareEnv 7)]

/-- The operation that signs. -/
def signing : SoftwareOperationBinder :=
  { engine := .signature "SHA256withECDSA" [2] false, usageKey := some key, usageCountLimit := 0, origin := ⟨key, 0⟩ }

/-- Two parts of the data to sign. -/
def message : List (HashMap Key Int × OperationRequest) := [(∅, .update (some [9])), (∅, .update (some [8, 7]))]

theorem makesKeys_bareEnv {n : Int} {e : Event} (h : e.surroundings = some (bareEnv n)) :
    e.MakesKeys streamProviders some := by
  intro e he
  obtain rfl := Option.some.inj (h.symm.trans he)
  refine ⟨fun params pair hpair => ?_, fun request leaf hleaf => ?_⟩
  · cases hpair
    rintro algorithm data signature ⟨⟩
    simp [streamProviders]
  · cases hleaf
    rfl

theorem makesKeys_of_surroundings_eq_none {e : Event} (h : e.surroundings = none) :
    e.MakesKeys streamProviders some := by
  intro env henv
  rw [h] at henv
  cases henv

theorem makesKeys_generateAndSign {e : Event} (he : e ∈ generateAndSign ++ [.persist]) :
    e.MakesKeys streamProviders some := by
  simp only [generateAndSign, start, List.cons_append, List.nil_append, List.mem_cons, List.not_mem_nil,
    or_false] at he
  rcases he with rfl | rfl | rfl | rfl
  · exact makesKeys_of_surroundings_eq_none rfl
  · exact makesKeys_bareEnv rfl
  · exact makesKeys_bareEnv rfl
  · exact makesKeys_of_surroundings_eq_none rfl

end Demo

open Demo SoftwareOperation in
theorem forged_signature_verifies_in_parts :
    ∃ r, (World.run platform {} (generateAndSign ++ [.persist])).daemon.ReadsEntry platform ⟨key, 0⟩ r ∧
      ∃ publicKey, r.metadata.certificate.bind some = some publicKey ∧
        streamProviders.verify "SHA256withECDSA" publicKey [9, 8, 7, 6] [2, 9, 8, 7, 6] = .ok true := by
  have hop : signing ∈ (World.run platform {} generateAndSign).daemon.operations := by decide
  have hreply : ((conversation streamProviders signing message).1.call ∅ (.finish (some [6]) none)).2.2 =
      .ok (some [2, 9, 8, 7, 6]) := by decide
  obtain ⟨r, hread⟩ : ∃ r, (World.run platform {} (generateAndSign ++ [.persist])).daemon.ReadsEntry platform
      signing.origin r := ⟨_, bareEnv 9, owner, some byAlias, 0, .inl rfl⟩
  refine ⟨r, hread, (forged_signature_verifies (fun e => makesKeys_generateAndSign) hop rfl hreply
    hread).resolve_left ?_⟩
  rintro ⟨before, e, after, hes, hreplaces⟩
  have he : e ∈ generateAndSign ++ [.persist] := by simp [hes]
  simp only [generateAndSign, start, List.cons_append, List.nil_append, List.mem_cons, List.not_mem_nil,
    or_false] at he
  rcases he with rfl | rfl | rfl | rfl
  · exact hreplaces
  · obtain ⟨desc, chain, hrequest, -⟩ := hreplaces
    cases hrequest
  · obtain ⟨desc, chain, hrequest, -⟩ := hreplaces
    cases hrequest
  · exact hreplaces

end TrickyStore
