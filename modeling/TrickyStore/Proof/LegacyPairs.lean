import Mathlib.Data.List.TakeWhile
import TrickyStore.Proof.LegacyAuto

/-!
# Leaf and chain of the legacy keystore

A client reads the leaf and the chain of a key with two calls of `get`.  What the second one is answered
with hangs on the entry that the first one left in `leafAlgorithms`, which all clients of the uid share:
any read of the chain takes it away, and a leaf that could not be signed leaves it behind.
-/

open Lib

namespace TrickyStore

open CertificateHack KeystoreInterceptor

/-! ## Reads in any order -/

/-- A read of a leaf whose hook has left its entry and not yet signed. -/
structure PendingLeaf (Client : Type) where
  client : Client
  name : String
  x : X509
  env : Env
  certificate : Bytes
  leaf : Option Certificate

/-- A leaf that was signed: the algorithm of its key, the keybox and what it signed. -/
structure SignedLeaf where
  algorithm : String
  keybox : KeyBox
  hacked : Certificate
deriving DecidableEq, Repr

/-- A leaf that a client got, for the certificate that the keystore had. -/
structure ReadLeaf where
  certificate : Bytes
  bytes : Bytes
  signed : Option SignedLeaf
deriving DecidableEq, Repr

/-- The chain that a client got after the leaf, for the list that the keystore had. -/
structure LegacyPair where
  leaf : ReadLeaf
  caList : Bytes
  chain : Bytes
deriving DecidableEq, Repr

/-- The reads of one uid: those under way, the leaf that each client read last under each alias, and the
pairs that were read. -/
structure LegacyReads (Client : Type) where
  shared : Daemon
  pending : HashMap ℕ (PendingLeaf Client) := ∅
  leaf : Client → String → Option ReadLeaf := fun _ _ => none
  pairs : List LegacyPair := []

/-- A read of a leaf is two steps, so that others can come between its entry and its signature.  `hooked`
is what the pre-hook of the call has decided; `x` says whether the re-sign will succeed. -/
inductive LegacyRead (Client : Type) where
  | beginLeaf (call : ℕ) (client : Client) (name : String) (hooked : Bool) (x : X509) (env : Env)
      (certificate : Bytes)
  | endLeaf (call : ℕ)
  | readChain (client : Client) (name : String) (hooked : Bool) (caList : Bytes)

def userCertificate (uid : Int) (name : String) : Key := ⟨uid, extractAlias (Credentials.USER_CERTIFICATE ++ name)⟩

def caCertificate (uid : Int) (name : String) : Key := ⟨uid, extractAlias (Credentials.CA_CERTIFICATE ++ name)⟩

namespace LegacyReads

variable {Client : Type} [DecidableEq Client] (uid : Int) (s : LegacyReads Client)

/-- The keybox that signs the leaf of a read, and what it signs. -/
def signed (p : PendingLeaf Client) : Option SignedLeaf :=
  p.leaf.bind fun leaf => (signing p.x s.shared.keyboxes leaf uid).map fun signed =>
    ⟨p.x.publicKeyAlgorithm leaf, signed.1, signed.2⟩

def next : LegacyRead Client → LegacyReads Client
  | .beginLeaf call client name hooked x env certificate =>
    let (shared, leaf) :=
      if hooked then beginUserCertificate x s.shared certificate (userCertificate uid name) else (s.shared, none)
    { s with shared, pending := s.pending.insert call { client, name, x, env, certificate, leaf } }
  | .endLeaf call =>
    match s.pending.lookup call with
    | none => s
    | some p =>
      let (shared, bytes) := endUserCertificate p.x p.env s.shared p.certificate uid p.leaf
      let leaf : ReadLeaf := { certificate := p.certificate, bytes, signed := s.signed uid p }
      { s with
        shared
        pending := s.pending.erase call
        leaf := Function.update s.leaf p.client (Function.update (s.leaf p.client) p.name (some leaf)) }
  | .readChain client name hooked caList =>
    let (shared, chain) :=
      if hooked then hackCACertificateChain s.shared caList (caCertificate uid name) else (s.shared, caList)
    { s with
      shared
      pairs := s.pairs ++ ((s.leaf client name).map fun leaf => { leaf, caList, chain }).toList }

end LegacyReads

/-- A signed leaf with the certificates of its keybox, or the original leaf with the original chain. -/
def LegacyPair.Belongs (p : LegacyPair) : Prop :=
  match p.leaf.signed with
  | some signed =>
    p.leaf.bytes = signed.hacked.encoded ∧ p.chain = signed.keybox.certificates.flatMap Certificate.encoded
  | none => p.leaf.bytes = p.leaf.certificate ∧ p.chain = p.caList

instance (p : LegacyPair) : Decidable p.Belongs := by
  unfold LegacyPair.Belongs
  split <;> infer_instance

/-! ## The hooks of a read -/

/-- An alias up to its first underscore. -/
def aliasPart (name : String) : String := String.ofList (name.toList.takeWhile (· ≠ '_'))

theorem aliasPart_eq {name : String} (h : '_' ∉ name.toList) : aliasPart name = name := by
  have hall : name.toList.takeWhile (· ≠ '_') = name.toList :=
    List.takeWhile_eq_self_iff.2 fun c hc => by simpa using ne_of_mem_of_not_mem hc h
  rw [aliasPart, hall, String.ofList_toList]

theorem extractAlias_prefixed {p : List Char} {pre name : String} (hpre : pre.toList = p ++ ['_'])
    (hp : '_' ∉ p) : extractAlias (pre ++ name) = aliasPart name := by
  have hfirst : (p ++ '_' :: name.toList).dropWhile (· ≠ '_') = '_' :: name.toList := by
    rw [List.dropWhile_append_of_pos fun c hc => by simpa using ne_of_mem_of_not_mem hc hp]
    rfl
  have hlist : (pre ++ name).toList = p ++ '_' :: name.toList := by simp [hpre]
  rw [extractAlias, hlist, if_pos (by simp), hfirst, List.drop_one, List.tail_cons, aliasPart]

theorem hasPrefix_append (pre name : String) : hasPrefix (pre ++ name) pre = true := by
  rw [hasPrefix, String.toList_append, List.isPrefixOf_iff_prefix]
  exact List.prefix_append _ _

theorem hasPrefix_caCertificate (name : String) :
    hasPrefix (Credentials.CA_CERTIFICATE ++ name) Credentials.USER_CERTIFICATE = false := by
  rw [hasPrefix, String.toList_append]
  rfl

/-- The two steps of a read of a leaf are the post-hook. -/
theorem onPostTransact_userCertificate (s : KeystoreInterceptor) (x : X509) (env : Env) (uid : Int)
    (name : String) {certificate : Bytes} (h : certificate.length < 2 ^ 31) :
    s.onPostTransact x env uid { code := .get, keyAlias := some (Credentials.USER_CERTIFICATE ++ name) }
        (some (byteArrayReply certificate)) =
      let begun := beginUserCertificate x s.shared certificate (userCertificate uid name)
      let ended := endUserCertificate x env begun.1 certificate uid begun.2
      ({ s with shared := ended.1 }, createByteArrayReply ended.2) := by
  simp only [onPostTransact, Option.bind_some, replyValue_byteArrayReply h, Option.getD_some, hackResponse,
    hasPrefix_append, if_true]
  rfl

theorem onPostTransact_caCertificate (s : KeystoreInterceptor) (x : X509) (env : Env) (uid : Int)
    (name : String) {caList : Bytes} (h : caList.length < 2 ^ 31) :
    s.onPostTransact x env uid { code := .get, keyAlias := some (Credentials.CA_CERTIFICATE ++ name) }
        (some (byteArrayReply caList)) =
      let hacked := hackCACertificateChain s.shared caList (caCertificate uid name)
      ({ s with shared := hacked.1 }, createByteArrayReply hacked.2) := by
  simp only [onPostTransact, Option.bind_some, replyValue_byteArrayReply h, Option.getD_some, hackResponse,
    hasPrefix_append, hasPrefix_caCertificate, if_true]
  rfl

/-! ## What one read does -/

/-- A leaf that a keybox signed, or the certificate itself. -/
def ReadLeaf.AsSigned (r : ReadLeaf) : Prop :=
  r.bytes = r.signed.elim r.certificate fun signed => signed.hacked.encoded

namespace LegacyReads

variable {Client : Type} {uid : Int} {s : LegacyReads Client}

/-- The algorithm that is kept for the chain of an alias. -/
def kept (uid : Int) (s : LegacyReads Client) (name : String) : Option String :=
  s.shared.leafAlgorithms.lookup (caCertificate uid name)

/-- The keybox of an algorithm, if its chain fits into an array. -/
def chainKeybox (keyboxes : HashMap String KeyBox) (algorithm : String) : Option KeyBox :=
  (keyboxFor keyboxes algorithm).filter fun keybox => (CertificateHack.toByteArray keybox.certificates).isSome

/-- When a client reads the chain, the algorithm kept for the alias selects the keybox that the algorithm of
the leaf it read last selects; for a leaf that was not signed it selects none. -/
def AlgorithmKept (uid : Int) (s : LegacyReads Client) : LegacyRead Client → Prop
  | .readChain client name hooked _ => ∀ leaf, s.leaf client name = some leaf →
      (if hooked then (s.kept uid name).bind (chainKeybox s.shared.keyboxes) else none) =
        leaf.signed.bind fun signed => keyboxFor s.shared.keyboxes signed.algorithm
  | _ => True

/-- The keybox that signed is still the one of the algorithm. -/
def Selects (s : LegacyReads Client) (signed : SignedLeaf) : Prop :=
  keyboxFor s.shared.keyboxes signed.algorithm = some signed.keybox

structure Consistent (s : LegacyReads Client) : Prop where
  attested : ∀ call p leaf, s.pending.lookup call = some p → p.leaf = some leaf →
    attestedLeaf p.x p.certificate = some leaf
  asSigned : ∀ client name r, s.leaf client name = some r → r.AsSigned
  selects : ∀ client name r signed, s.leaf client name = some r → r.signed = some signed → s.Selects signed
  belongs : ∀ p ∈ s.pairs, p.Belongs

/-- The chain that is due at a read. -/
def due (uid : Int) (s : LegacyReads Client) (name : String) (hooked : Bool) : Option Bytes :=
  if hooked then chainDue s.shared (caCertificate uid name) else none

theorem chainKeybox_bytes (keyboxes : HashMap String KeyBox) (algorithm : String) :
    (chainKeybox keyboxes algorithm).map (fun keybox => keybox.certificates.flatMap Certificate.encoded) =
      (keyboxFor keyboxes algorithm).bind fun keybox => CertificateHack.toByteArray keybox.certificates := by
  unfold chainKeybox
  cases keyboxFor keyboxes algorithm with
  | none => rfl
  | some keybox =>
    simp only [Option.bind_some, Option.filter_some, CertificateHack.toByteArray]
    by_cases hlength : (keybox.certificates.flatMap Certificate.encoded).length < 2 ^ 31
    · rw [if_pos hlength]
      rfl
    · rw [if_neg hlength]
      rfl

/-- It is that of the keybox that the kept algorithm selects. -/
theorem due_eq (name : String) (hooked : Bool) :
    s.due uid name hooked =
      (if hooked then (s.kept uid name).bind (chainKeybox s.shared.keyboxes) else none).map
        fun keybox => keybox.certificates.flatMap Certificate.encoded := by
  cases hooked with
  | false => rfl
  | true =>
    simp only [due, chainDue, kept, if_true, Option.bind_assoc, Option.map_bind, Function.comp_def,
      chainKeybox_bytes]

/-- A keybox that is selected at a read is the keybox of an algorithm. -/
theorem selected_loaded {name : String} {hooked : Bool} {keybox : KeyBox}
    (h : (if hooked then (s.kept uid name).bind (chainKeybox s.shared.keyboxes) else none) = some keybox) :
    ∃ algorithm, keyboxFor s.shared.keyboxes algorithm = some keybox := by
  split_ifs at h
  obtain ⟨algorithm, -, hkeybox⟩ := Option.bind_eq_some_iff.1 h
  exact ⟨algorithm, (Option.filter_eq_some_iff.1 hkeybox).1⟩

/-- The bytes that the second step delivers. -/
theorem endUserCertificate_signed {p : PendingLeaf Client}
    (h : ∀ leaf, p.leaf = some leaf → attestedLeaf p.x p.certificate = some leaf) :
    (endUserCertificate p.x p.env s.shared p.certificate uid p.leaf).2 =
      (s.signed uid p).elim p.certificate fun signed => signed.hacked.encoded := by
  unfold signed
  cases hleaf : p.leaf with
  | none => rfl
  | some leaf =>
    simp only [endUserCertificate, Option.bind_some, hackLeaf_attested (h leaf hleaf)]
    cases signing p.x s.shared.keyboxes leaf uid <;> rfl

/-- Before any read. -/
def start (shared : Daemon) : LegacyReads Client := { shared }

theorem start_consistent (shared : Daemon) : (start shared : LegacyReads Client).Consistent :=
  ⟨fun _ _ _ h => (by cases h), fun _ _ _ h => (by cases h), fun _ _ _ _ h => (by cases h),
    fun _ h => (by cases h)⟩

theorem signed_selects {p : PendingLeaf Client} {signed : SignedLeaf} (h : s.signed uid p = some signed) :
    s.Selects signed := by
  obtain ⟨leaf, -, hmap⟩ := Option.bind_eq_some_iff.1 h
  obtain ⟨pair, hsign, rfl⟩ := Option.map_eq_some_iff.1 hmap
  simp only [signing, Option.bind_eq_bind, Option.bind_eq_some_iff] at hsign
  obtain ⟨keybox, hkeybox, first, -, hacked, -, hpair⟩ := hsign
  cases hpair
  exact hkeybox

variable [DecidableEq Client]

/-! ## Steps -/

/-- No read touches the keyboxes. -/
theorem next_keyboxes (e : LegacyRead Client) : (s.next uid e).shared.keyboxes = s.shared.keyboxes := by
  cases e with
  | beginLeaf call client name hooked x env certificate =>
    cases hooked with
    | false => rfl
    | true =>
      simp only [next, if_true, beginUserCertificate]
      cases attestedLeaf x certificate <;> rfl
  | endLeaf call =>
    simp only [next]
    cases s.pending.lookup call with
    | none => rfl
    | some p =>
      simp only [endUserCertificate]
      cases p.leaf with
      | none => rfl
      | some leaf =>
        simp only
        split_ifs <;> rfl
  | readChain client name hooked caList =>
    cases hooked with
    | false => rfl
    | true =>
      simp only [next, if_true, hackCACertificateChain]
      cases s.shared.leafAlgorithms.lookup (caCertificate uid name) <;> rfl

theorem next_selects {e : LegacyRead Client} {signed : SignedLeaf} :
    (s.next uid e).Selects signed ↔ s.Selects signed := by
  rw [Selects, Selects, next_keyboxes]

theorem Consistent.beginLeaf (h : s.Consistent) (call : ℕ) (client : Client) (name : String) (hooked : Bool)
    (x : X509) (env : Env) (certificate : Bytes) :
    (s.next uid (.beginLeaf call client name hooked x env certificate)).Consistent := by
  refine ⟨fun call' p leaf hp hleaf => ?_, h.asSigned,
    fun client name r signed hr hs => next_selects.2 (h.selects client name r signed hr hs), h.belongs⟩
  simp only [next, HashMap.lookup_insert_eq_some] at hp
  rcases hp with ⟨-, rfl⟩ | ⟨-, hold⟩
  · cases hooked with
    | false => cases hleaf
    | true =>
      simp only [if_true, beginUserCertificate] at hleaf
      cases hattested : attestedLeaf x certificate with
      | none =>
        rw [hattested] at hleaf
        cases hleaf
      | some leaf' =>
        rw [hattested] at hleaf
        cases hleaf
        rfl
  · exact h.attested call' p leaf hold hleaf

/-- A leaf that a client has after the second step is the one that was signed, or an earlier one. -/
theorem endLeaf_leaf {call : ℕ} {p : PendingLeaf Client} {client : Client} {name : String} {r : ReadLeaf}
    (hp : s.pending.lookup call = some p) (hr : (s.next uid (.endLeaf call)).leaf client name = some r) :
    r = { certificate := p.certificate
          bytes := (endUserCertificate p.x p.env s.shared p.certificate uid p.leaf).2
          signed := s.signed uid p } ∨ s.leaf client name = some r := by
  simp only [next, hp] at hr
  by_cases hclient : client = p.client
  · subst hclient
    rw [Function.update_self] at hr
    by_cases hname : name = p.name
    · subst hname
      rw [Function.update_self] at hr
      cases hr
      exact .inl rfl
    · rw [Function.update_of_ne hname] at hr
      exact .inr hr
  · rw [Function.update_of_ne hclient] at hr
    exact .inr hr

theorem Consistent.endLeaf (h : s.Consistent) (call : ℕ) : (s.next uid (.endLeaf call)).Consistent := by
  cases hp : s.pending.lookup call with
  | none => simpa only [next, hp] using h
  | some p =>
    have hattested : ∀ leaf, p.leaf = some leaf → attestedLeaf p.x p.certificate = some leaf :=
      fun leaf => h.attested call p leaf hp
    refine ⟨fun call' p' leaf hp' hleaf => ?_, fun client name r hr => ?_,
      fun client name r signed hr hs => next_selects.2 ?_, ?_⟩
    · simp only [next, hp] at hp'
      exact h.attested call' p' leaf (HashMap.lookup_erase_eq_some.1 hp').2 hleaf
    · rcases endLeaf_leaf hp hr with rfl | hold
      · exact endUserCertificate_signed hattested
      · exact h.asSigned client name r hold
    · rcases endLeaf_leaf hp hr with rfl | hold
      · exact signed_selects hs
      · exact h.selects client name r signed hold hs
    · simpa only [next, hp] using h.belongs

theorem readChain_pairs (client : Client) (name : String) (hooked : Bool) (caList : Bytes) :
    (s.next uid (.readChain client name hooked caList)).pairs = s.pairs ++
      ((s.leaf client name).map fun leaf =>
        { leaf, caList, chain := (s.due uid name hooked).getD caList : LegacyPair }).toList := by
  cases hooked with
  | false => rfl
  | true => simp only [next, due, if_true, hackCACertificateChain_bytes]

theorem Consistent.readChain (h : s.Consistent) {client : Client} {name : String} {hooked : Bool}
    {caList : Bytes} (hkept : s.AlgorithmKept uid (.readChain client name hooked caList)) :
    (s.next uid (.readChain client name hooked caList)).Consistent := by
  refine ⟨h.attested, h.asSigned,
    fun client name r signed hr hs => next_selects.2 (h.selects client name r signed hr hs), fun p hp => ?_⟩
  rw [readChain_pairs] at hp
  rcases List.mem_append.1 hp with hold | hnew
  · exact h.belongs p hold
  · obtain ⟨leaf, hleaf, rfl⟩ : ∃ leaf, s.leaf client name = some leaf ∧
        { leaf, caList, chain := (s.due uid name hooked).getD caList : LegacyPair } = p := by
      simpa using hnew
    have hbytes := h.asSigned client name leaf hleaf
    rw [due_eq, hkept leaf hleaf]
    unfold LegacyPair.Belongs ReadLeaf.AsSigned at *
    cases hsigned : leaf.signed with
    | none => exact ⟨by rw [hbytes, hsigned]; rfl, rfl⟩
    | some signed =>
      have hselects : keyboxFor s.shared.keyboxes signed.algorithm = some signed.keybox :=
        h.selects client name leaf signed hleaf hsigned
      refine ⟨by rw [hbytes, hsigned]; rfl, ?_⟩
      rw [Option.bind_some, hselects]
      rfl

theorem Consistent.next (h : s.Consistent) {e : LegacyRead Client} (hkept : s.AlgorithmKept uid e) :
    (s.next uid e).Consistent := by
  cases e with
  | beginLeaf call client name hooked x env certificate => exact h.beginLeaf ..
  | endLeaf call => exact h.endLeaf call
  | readChain client name hooked caList => exact h.readChain hkept

/-! ## The condition is exact -/

/-- No two keyboxes have one chain. -/
def DistinctChains (keyboxes : HashMap String KeyBox) : Prop :=
  ∀ algorithm algorithm' keybox keybox', keyboxFor keyboxes algorithm = some keybox →
    keyboxFor keyboxes algorithm' = some keybox' →
    keybox.certificates.flatMap Certificate.encoded = keybox'.certificates.flatMap Certificate.encoded →
    keybox = keybox'

/-- The list that the keystore has for a chain is none of the keyboxes' chains. -/
def OwnList (keyboxes : HashMap String KeyBox) : LegacyRead Client → Prop
  | .readChain _ _ _ caList => ∀ algorithm keybox, keyboxFor keyboxes algorithm = some keybox →
      caList ≠ keybox.certificates.flatMap Certificate.encoded
  | _ => True

/-- A pair that belongs together was read with the algorithm of its leaf kept. -/
theorem algorithmKept_of_belongs (h : s.Consistent) {e : LegacyRead Client}
    (hdistinct : DistinctChains s.shared.keyboxes) (hown : OwnList s.shared.keyboxes e)
    (hbelongs : ∀ p ∈ (s.next uid e).pairs, p.Belongs) : s.AlgorithmKept uid e := by
  cases e with
  | beginLeaf call client name hooked x env certificate => trivial
  | endLeaf call => trivial
  | readChain client name hooked caList =>
    intro leaf hleaf
    have hpair : LegacyPair.Belongs { leaf, caList, chain := (s.due uid name hooked).getD caList } := by
      refine hbelongs _ ?_
      rw [readChain_pairs, hleaf]
      simp
    unfold LegacyPair.Belongs at hpair
    rw [due_eq] at hpair
    cases hkeybox : (if hooked then (s.kept uid name).bind (chainKeybox s.shared.keyboxes) else none) with
    | none =>
      rw [hkeybox] at hpair
      cases hsigned : leaf.signed with
      | none => rfl
      | some signed =>
        simp only [hsigned, Option.map_none, Option.getD_none] at hpair
        exact absurd hpair.2 (hown _ _ (h.selects client name leaf signed hleaf hsigned))
    | some keybox =>
      obtain ⟨algorithm, hloaded⟩ := selected_loaded hkeybox
      rw [hkeybox] at hpair
      cases hsigned : leaf.signed with
      | none =>
        simp only [hsigned, Option.map_some, Option.getD_some] at hpair
        exact absurd hpair.2.symm (hown _ _ hloaded)
      | some signed =>
        simp only [hsigned, Option.map_some, Option.getD_some] at hpair
        have hselects : keyboxFor s.shared.keyboxes signed.algorithm = some signed.keybox :=
          h.selects client name leaf signed hleaf hsigned
        rw [Option.bind_some, hselects, hdistinct _ _ _ _ hloaded hselects hpair.2]

/-- Apart from lists that are a keybox's chain by themselves, the pairs of a run and of all its prefixes
belong together only if every read of a chain finds the algorithm of its leaf kept. -/
theorem algorithmKept_iff_belongs {shared : Daemon} {es : List (LegacyRead Client)}
    (hdistinct : DistinctChains shared.keyboxes) (hown : ∀ e ∈ es, OwnList shared.keyboxes e) :
    Machine.AllSteps (next uid) (AlgorithmKept uid) (.start shared) es ↔
      ∀ es₁, es₁ <+: es → ∀ p ∈ (Machine.run (next uid) (.start shared) es₁).pairs, p.Belongs :=
  Machine.allSteps_iff_forall_prefix
    (I := fun s : LegacyReads Client => s.Consistent ∧ s.shared.keyboxes = shared.keyboxes)
    ⟨start_consistent shared, rfl⟩ hown
    (fun _ _ hs _ hkept => ⟨hs.1.next hkept, by rw [next_keyboxes, hs.2]⟩) (fun _ hs => hs.1.belongs)
    fun _ _ hs he hbelongs =>
      algorithmKept_of_belongs hs.1 (by rwa [hs.2]) (by rwa [hs.2]) hbelongs

end LegacyReads

/-- Leaf and chain belong together in every run whose reads of a chain find the algorithm kept that goes
with the leaf. -/
theorem legacyPairs_belong {Client : Type} [DecidableEq Client] {uid : Int} {shared : Daemon}
    {es : List (LegacyRead Client)}
    (h : Machine.AllSteps (LegacyReads.next uid) (LegacyReads.AlgorithmKept uid) (.start shared) es) :
    ∀ p ∈ (Machine.run (LegacyReads.next uid) (.start shared) es).pairs, p.Belongs :=
  (h.invariant (LegacyReads.start_consistent shared) fun _ _ hs hkept => hs.next hkept).belongs

/-! ## Two clients -/

namespace Demo

/-- A read of an attested leaf, in both steps. -/
def readLeaf (call client : ℕ) : List (LegacyRead ℕ) :=
  [.beginLeaf call client "a" true x509 (env 0) [0x30, 1], .endLeaf call]

def readChain (client : ℕ) : LegacyRead ℕ := .readChain client "a" true [9]

/-- What a client that is alone gets. -/
def signedPair : LegacyPair :=
  { leaf := { certificate := [0x30, 1], bytes := [0x31, 6]
              signed := some ⟨"EC", ⟨⟨[5], [6]⟩, [⟨[7]⟩]⟩, ⟨[0x31, 6]⟩⟩ }
    caList := [9], chain := [7] }

end Demo

open Demo

theorem legacyPairs_belong_one_client : signedPair.Belongs := by
  have hkept : Machine.AllSteps (LegacyReads.next owner) (LegacyReads.AlgorithmKept owner)
      (.start (legacy .LEAF_HACK .AUTO).shared) (readLeaf 0 0 ++ [readChain 0]) := by
    refine Machine.allSteps_cons trivial (Machine.allSteps_cons trivial
      (Machine.allSteps_cons (fun leaf hleaf => ?_) Machine.allSteps_nil))
    cases hleaf
    decide
  exact legacyPairs_belong hkept signedPair (by decide)

/-- Both clients get a signed leaf, the second one with the original chain. -/
theorem legacyPairs_two_clients :
    ¬∀ p ∈ (Machine.run (LegacyReads.next owner) (.start (legacy .LEAF_HACK .AUTO).shared)
      (readLeaf 0 0 ++ readLeaf 1 1 ++ [readChain 0, readChain 1])).pairs, p.Belongs := by
  decide

end TrickyStore
