import TrickyStore.Model.KeystoreInterceptor
import TrickyStore.Proof.PlainAuto
import TrickyStore.Proof.WireFormat

/-!
# Plain AUTO on the legacy keystore

The pre-hook takes every `get` of a plain AUTO caller, since `needHack` holds for AUTO, and the post-hook
does not ask for the mode at all: it signs a leaf again and replaces a chain whoever reads them.  The
packages of the caller are those that the package manager reports; what `uidPackages` has kept for the uid
may be of another time, and then decides in their place.
-/

open Lib

namespace TrickyStore

namespace KeystoreInterceptor

open ByteParcel CertificateHack

/-! ## Replies with a byte array -/

theorem byteArrayReply_eq (b : Bytes) :
    byteArrayReply b = littleEndian 4 (0 : BitVec 32).toNat ++
      (littleEndian 4 (BitVec.ofNat 32 b.length).toNat ++ (b ++ padding b)) := by
  unfold byteArrayReply written writeNoException writeByteArray writeInt
  rw [show ({} : ByteParcel) = split [] [] from rfl, run_bind write_split, run_bind write_split, write_split]
  simp only [split, List.nil_append, List.append_nil, List.append_assoc, Option.map_some, Option.getD_some]

theorem createByteArray_split {front b rest : Bytes} (h : b.length < 2 ^ 31) :
    createByteArray (split front (littleEndian 4 (BitVec.ofNat 32 b.length).toNat ++ (b ++ rest))) =
      some (some b, split (front ++ littleEndian 4 (BitVec.ofNat 32 b.length).toNat) (b ++ rest)) := by
  have hlength : (BitVec.ofNat 32 b.length).toNat = b.length := by
    rw [BitVec.toNat_ofNat]
    omega
  have hint : (BitVec.ofNat 32 b.length).toInt ≥ 0 := by
    rw [BitVec.toInt_eq_toNat_of_lt (by omega), hlength]
    exact Int.natCast_nonneg _
  unfold createByteArray
  rw [run_bind (readInt_split _), run_get, if_pos, hlength]
  · simp only [split, List.drop_left, List.take_left]
    rfl
  · refine ⟨hint, ?_⟩
    rw [hlength]
    simp only [split, dataSize, List.length_append]
    omega

theorem replyValue_byteArrayReply {b : Bytes} (h : b.length < 2 ^ 31) :
    replyValue (byteArrayReply b) = some b := by
  have hheader : readException (split [] (byteArrayReply b)) = some ((), split (littleEndian 4 0)
      (littleEndian 4 (BitVec.ofNat 32 b.length).toNat ++ (b ++ padding b))) := by
    unfold readException
    rw [byteArrayReply_eq, run_bind (readInt_split _), if_pos rfl]
    rfl
  unfold replyValue
  rw [show (⟨byteArrayReply b, 0⟩ : ByteParcel) = split [] (byteArrayReply b) from rfl, run_bind hheader,
    createByteArray_split h]
  rfl

theorem length_createByteArray {p p' : ByteParcel} {b : Bytes} (h : createByteArray p = some (some b, p')) :
    b.length < 2 ^ 31 := by
  obtain ⟨length, q, hint⟩ : ∃ length q, readInt p = some (length, q) := ⟨_, _, rfl⟩
  unfold createByteArray at h
  rw [run_bind hint, run_get] at h
  split_ifs at h with hfits
  · cases h
    have hlt : length.toNat < 2 ^ 31 := by
      have hnonneg := hfits.1
      rw [BitVec.toInt_eq_toNat_cond] at hnonneg
      split_ifs at hnonneg <;> omega
    exact (List.length_take_le _ _).trans_lt hlt
  · cases h

theorem length_of_replyValue {reply response : Bytes} (h : replyValue reply = some response) :
    response.length < 2 ^ 31 := by
  obtain ⟨⟨value, p⟩, hread, hvalue⟩ := Option.bind_eq_some_iff.1 h
  obtain ⟨⟨_, q⟩, -, harray⟩ := Option.bind_eq_some_iff.1 hread
  cases hvalue
  exact length_createByteArray harray

/-! ## A plain AUTO caller -/

variable {s : KeystoreInterceptor} {P : Platform} {x : X509} {env : Env} {callingUid : Int}
  {request : LegacyRequest} {real : BitVec 32 × Option Bytes}

/-- Once resolved, a caller is of the mode of its cached packages. -/
theorem needGenerate_of_plainAutoCaller {d : Daemon} (h : d.PlainAutoCaller env callingUid) :
    d.needGenerate env callingUid = d.config.isExplicitGenerate callingUid := by
  obtain ⟨ps, hps, hauto⟩ := h
  cases hcached : d.config.uidPackages.lookup callingUid with
  | none =>
    have hfound : d.config.packages env.packageManager callingUid = some ps := by
      rw [PkgConfig.packages, hcached]
      exact hps
    rw [PkgConfig.isExplicitGenerate, PkgConfig.hasTargetMode, hcached]
    exact PkgConfig.needGenerate_of_plainAuto hfound hauto
  | some kept =>
    have hfound : d.config.packages env.packageManager callingUid = some kept := by
      rw [PkgConfig.packages, hcached]
      rfl
    simp only [Daemon.needGenerate, PkgConfig.needGenerate, PkgConfig.checkNeed, hfound,
      PkgConfig.isExplicitGenerate, PkgConfig.hasTargetMode, hcached, TeeProbeClassifier.autoGenerateAllowed]
    refine congrArg (List.any kept) (funext fun pkg => ?_)
    cases d.config.packageModes.lookup pkg with
    | none => rfl
    | some m => cases m <;> rfl

/-- A `get` is taken unless the cached packages are listed for forging only, or not at all. -/
def TakesGet (s : KeystoreInterceptor) (callingUid : Int) : Prop :=
  s.shared.config.uidPackages.containsKey callingUid = true →
    s.shared.config.hasTargetMode callingUid .AUTO = true ∨ s.shared.config.isExplicitLeafHack callingUid = true

theorem needHack_of_plainAutoCaller (h : s.shared.PlainAutoCaller env callingUid) :
    s.shared.needHack env callingUid = true ↔ s.TakesGet callingUid := by
  obtain ⟨ps, hps, hauto⟩ := h
  unfold TakesGet
  cases hcached : s.shared.config.uidPackages.lookup callingUid with
  | none =>
    have hfound : s.shared.config.packages env.packageManager callingUid = some ps := by
      rw [PkgConfig.packages, hcached]
      exact hps
    have hnot : s.shared.config.uidPackages.containsKey callingUid = false :=
      HashMap.containsKey_eq_false.2 hcached
    exact iff_of_true (PkgConfig.needHack_of_plainAuto hfound hauto) (by simp [hnot])
  | some kept =>
    have hfound : s.shared.config.packages env.packageManager callingUid = some kept := by
      rw [PkgConfig.packages, hcached]
      rfl
    have hkept : s.shared.config.uidPackages.containsKey callingUid = true :=
      HashMap.containsKey_eq_true.2 ⟨kept, hcached⟩
    simp only [hkept, forall_const, Daemon.needHack, PkgConfig.needHack, PkgConfig.checkNeed, hfound,
      PkgConfig.isExplicitLeafHack, PkgConfig.hasTargetMode, hcached, TeeProbeClassifier.autoLeafHackAllowed,
      List.any_eq_true, ← exists_or, ← and_or_left]
    refine exists_congr fun pkg => and_congr_right fun _ => ?_
    cases s.shared.config.packageModes.lookup pkg with
    | none => simp
    | some m => cases m <;> simp

/-! ## What is answered in the keystore's place -/

def successReply : Bytes := written do writeNoException; writeInt NO_ERROR

/-- The handler of a forged key has what it needs to answer: the callback, and what earlier transactions
have left under the key. -/
def answers (s : KeystoreInterceptor) (env : Env) (request : LegacyRequest) (k : Key) : Bool :=
  match request.code with
  | .get => false
  | .generateKey => request.callback && request.arguments.all fun kma => (kma.keyGenParameters env).isSome
  | .getKeyCharacteristics => request.callback && s.keyArguments.containsKey k
  | .exportKey => request.callback && ((s.keyArguments.lookup k).bind (generateKeyPair env)).isSome
  | .attestKey => request.arguments.all fun kma =>
      request.callback && (kma.getBytes Tag.ATTESTATION_CHALLENGE []).isSome && s.keyArguments.containsKey k &&
        s.keyPairs.containsKey k

/-- The request is answered as one about a forged key. -/
def answersForged (s : KeystoreInterceptor) (env : Env) (callingUid : Int) (request : LegacyRequest) : Bool :=
  request.enforced && request.keyAlias.any fun name => s.answers env request ⟨callingUid, extractAlias name⟩

theorem called_result (callback : LegacyCallback) : (s.called request callback).2.1 =
    if request.callback = true then createSuccessReply else .Skip := by
  unfold called
  split_ifs <;> rfl

theorem generate_result : (s.generate P env callingUid request).2.1 =
    if s.answersForged env callingUid request = true then createSuccessReply else .Skip := by
  unfold generate answersForged
  cases request.enforced with
  | false => rfl
  | true =>
    cases request.keyAlias with
    | none => rfl
    | some name =>
      simp only [Bool.true_and, Option.any_some]
      generalize (⟨callingUid, extractAlias name⟩ : Key) = k
      unfold answers
      cases request.code with
      | get => rfl
      | generateKey =>
        simp only [generateKey]
        cases request.arguments with
        | none => simp [called_result]
        | some kma => cases h : kma.keyGenParameters env <;> simp [h, called_result]
      | getKeyCharacteristics =>
        rcases Option.eq_none_or_eq_some (s.keyArguments.lookup k) with h | ⟨kgp, h⟩ <;>
          simp [getKeyCharacteristics, HashMap.containsKey, h, called_result]
      | exportKey =>
        simp only [exportKey]
        cases (s.keyArguments.lookup k).bind (generateKeyPair env) <;> simp [called_result]
      | attestKey =>
        cases harguments : request.arguments with
        | none => simp [attestKey, harguments]
        | some kma =>
          cases h : kma.getBytes Tag.ATTESTATION_CHALLENGE [] <;>
            rcases Option.eq_none_or_eq_some (s.keyArguments.lookup k) with h' | ⟨kgp, h'⟩ <;>
              rcases Option.eq_none_or_eq_some (s.keyPairs.lookup k) with h'' | ⟨kp, h''⟩ <;>
                simp [attestKey, HashMap.containsKey, harguments, h, h', h'', called_result]

theorem onPreTransact_get (h : s.shared.PlainAutoCaller env callingUid) (hboxes : s.shared.hasKeyboxes = true)
    (hget : request.code = .get) (htakes : s.TakesGet callingUid) :
    s.onPreTransact P env callingUid request = (s.checked env callingUid, .Continue, []) := by
  have hneed := (needHack_of_plainAutoCaller h).2 htakes
  simp [onPreTransact, hboxes, hget, hneed]

theorem onPreTransact_get_left (h : s.shared.PlainAutoCaller env callingUid) (hget : request.code = .get)
    (hleft : ¬(s.shared.hasKeyboxes = true ∧ s.TakesGet callingUid)) :
    (s.onPreTransact P env callingUid request).2.1 = .Skip := by
  rw [← needHack_of_plainAutoCaller h] at hleft
  unfold onPreTransact
  split_ifs with hboxes hneed
  · rfl
  · exact absurd ⟨by simpa using hboxes, hneed⟩ hleft
  · rfl

/-- The other transactions are those of a forged key if the cached packages are listed for forging. -/
theorem onPreTransact_other (h : s.shared.PlainAutoCaller env callingUid) (hother : request.code ≠ .get) :
    (s.onPreTransact P env callingUid request).2.1 =
      if (s.shared.hasKeyboxes && s.shared.config.isExplicitGenerate callingUid &&
        s.answersForged env callingUid request) = true then createSuccessReply else .Skip := by
  have hanswer := @generate_result (s.checked env callingUid) P env callingUid request
  have hsame : (s.checked env callingUid).answersForged env callingUid request =
      s.answersForged env callingUid request := rfl
  rw [hsame] at hanswer
  unfold onPreTransact
  rw [needGenerate_of_plainAutoCaller h]
  cases hboxes : s.shared.hasKeyboxes with
  | false => rfl
  | true =>
    rw [if_neg (by simp)]
    dsimp only
    rw [if_neg hother]
    cases s.shared.config.isExplicitGenerate callingUid with
    | false => rfl
    | true => exact hanswer

/-! ## What the post-hook delivers -/

/-- The keybox that signs the leaf in place of an attested one, and what it signs. -/
def resigned (s : KeystoreInterceptor) (x : X509) (callingUid : Int) (response : Bytes) :
    Option (KeyBox × Certificate) :=
  (attestedLeaf x response).bind fun leaf => signing x s.shared.keyboxes leaf callingUid

/-- The bytes under a name stay what they are: a leaf that would be signed again is the same afterwards,
and so is a chain that is due. -/
def KeepsResponse (s : KeystoreInterceptor) (x : X509) (callingUid : Int) (name : String)
    (response : Bytes) : Prop :=
  (hasPrefix name Credentials.USER_CERTIFICATE = true → ∀ signed,
    s.resigned x callingUid response = some signed → signed.2.encoded = response) ∧
  (hasPrefix name Credentials.USER_CERTIFICATE = false → ∀ chain,
    chainDue s.shared ⟨callingUid, extractAlias name⟩ = some chain → chain = response)

/-- With keyboxes, a `get` under one of the two prefixes is answered with a reply that holds an array and
nothing else, and its bytes stay what they are; another transaction is not answered as one about a forged
key, or with the reply that the keystore has for it, too. -/
structure LegacyUntouched (s : KeystoreInterceptor) (x : X509) (env : Env) (callingUid : Int)
    (request : LegacyRequest) (reply : Option Bytes) : Prop where
  get : s.shared.hasKeyboxes = true → request.code = .get → s.TakesGet callingUid →
    request.toKeystore = true → request.enforced = true →
    ∀ b response, reply = some b → b ≠ [] → replyValue b = some response →
      (hasPrefix (request.keyAlias.getD "") Credentials.USER_CERTIFICATE = true ∨
        hasPrefix (request.keyAlias.getD "") Credentials.CA_CERTIFICATE = true) →
        b = byteArrayReply response ∧ s.KeepsResponse x callingUid (request.keyAlias.getD "") response
  other : s.shared.hasKeyboxes = true → request.code ≠ .get →
    s.shared.config.isExplicitGenerate callingUid = true → s.answersForged env callingUid request = true →
      reply = some successReply

/-- What the hook has for a name: nothing without a prefix, and otherwise the bytes as they are exactly if
they are to stay. -/
theorem hackResponse_cases (s : KeystoreInterceptor) (x : X509) (env : Env) (callingUid : Int) (name : String)
    {response : Bytes} (hlength : response.length < 2 ^ 31) :
    (hasPrefix name Credentials.USER_CERTIFICATE = false ∧
      hasPrefix name Credentials.CA_CERTIFICATE = false ∧
        s.hackResponse x env callingUid name response = none) ∨
    ((hasPrefix name Credentials.USER_CERTIFICATE = true ∨ hasPrefix name Credentials.CA_CERTIFICATE = true) ∧
      ∃ shared bytes, s.hackResponse x env callingUid name response = some (shared, bytes) ∧
        bytes.length < 2 ^ 31 ∧ (bytes = response ↔ s.KeepsResponse x callingUid name response)) := by
  cases huser : hasPrefix name Credentials.USER_CERTIFICATE with
  | true =>
    refine .inr ⟨.inl rfl, _, _, by rw [hackResponse, if_pos huser], ?_⟩
    have hbytes := hackUserCertificate_bytes (x := x) env s.shared response
      ⟨callingUid, extractAlias name⟩
    cases hsigned : s.resigned x callingUid response with
    | none =>
      rw [hbytes, show Option.bind _ _ = none from hsigned]
      exact ⟨hlength, by simp [KeepsResponse, huser, hsigned]⟩
    | some signed =>
      obtain ⟨leaf, -, hsign⟩ := Option.bind_eq_some_iff.1 hsigned
      rw [hbytes, show Option.bind _ _ = some signed from hsigned]
      exact ⟨length_signing hsign, by simp [KeepsResponse, huser, hsigned]⟩
  | false =>
    cases hchain : hasPrefix name Credentials.CA_CERTIFICATE with
    | false => exact .inl ⟨rfl, rfl, by simp [hackResponse, huser, hchain]⟩
    | true =>
      refine .inr ⟨.inr rfl, _, _, by rw [hackResponse, if_neg (by simp [huser]), if_pos hchain], ?_⟩
      have hbytes := hackCACertificateChain_bytes s.shared response ⟨callingUid, extractAlias name⟩
      cases hdue : chainDue s.shared ⟨callingUid, extractAlias name⟩ with
      | none =>
        rw [hbytes, hdue]
        exact ⟨hlength, by simp [KeepsResponse, huser, hdue]⟩
      | some bytes =>
        obtain ⟨keybox, -, harray⟩ := Option.bind_eq_some_iff.1 hdue
        rw [hbytes, hdue]
        exact ⟨length_toByteArray harray, by simp [KeepsResponse, huser, hdue]⟩

/-- The post-hook has the bytes of the reply and a name with a prefix. -/
theorem onPostTransact_cases (s : KeystoreInterceptor) (x : X509) (env : Env) (callingUid : Int)
    (reply : Option Bytes) (hget : request.code = .get) :
    (s.onPostTransact x env callingUid request reply = (s, .Skip) ∧
      ∀ b response, request.toKeystore = true → request.enforced = true → reply = some b →
        replyValue b = some response →
          ¬(hasPrefix (request.keyAlias.getD "") Credentials.USER_CERTIFICATE = true ∨
            hasPrefix (request.keyAlias.getD "") Credentials.CA_CERTIFICATE = true)) ∨
    ∃ b response shared bytes, request.toKeystore = true ∧ request.enforced = true ∧ reply = some b ∧
      replyValue b = some response ∧
      (hasPrefix (request.keyAlias.getD "") Credentials.USER_CERTIFICATE = true ∨
        hasPrefix (request.keyAlias.getD "") Credentials.CA_CERTIFICATE = true) ∧
      s.onPostTransact x env callingUid request reply = ({ s with shared }, createByteArrayReply bytes) ∧
      bytes.length < 2 ^ 31 ∧
      (bytes = response ↔ s.KeepsResponse x callingUid (request.keyAlias.getD "") response) := by
  unfold onPostTransact
  by_cases hrefused : (!request.toKeystore || request.code ≠ .get || !request.enforced) = true
  · rw [if_pos hrefused]
    refine .inl ⟨rfl, fun b response hkeystore henforced => ?_⟩
    simp [hget, hkeystore, henforced] at hrefused
  · rw [if_neg hrefused]
    obtain ⟨hkeystore, henforced⟩ : request.toKeystore = true ∧ request.enforced = true := by
      simpa [hget] using hrefused
    cases hvalue : reply.bind replyValue with
    | none =>
      refine .inl ⟨rfl, fun b response _ _ hb hresponse => ?_⟩
      rw [hb, Option.bind_some, hresponse] at hvalue
      cases hvalue
    | some response =>
      obtain ⟨b, hb, hresponse⟩ := Option.bind_eq_some_iff.1 hvalue
      rcases hackResponse_cases s x env callingUid (request.keyAlias.getD "")
        (length_of_replyValue hresponse) with
        ⟨huser, hchain, hnone⟩ | ⟨hnamed, shared, bytes, hsome, hlength, hkeeps⟩
      · refine .inl ⟨by simp only [hnone], fun _ _ _ _ _ _ => ?_⟩
        simp [huser, hchain]
      · exact .inr ⟨b, response, shared, bytes, hkeystore, henforced, hb, hresponse, hnamed, by simp only [hsome],
          hlength, hkeeps⟩

theorem transact_get_untouched_iff (h : s.shared.PlainAutoCaller env callingUid)
    (hboxes : s.shared.hasKeyboxes = true) (hget : request.code = .get) (htakes : s.TakesGet callingUid) :
    (s.transact P x env callingUid request real).2.2 = real.2 ↔
      s.LegacyUntouched x env callingUid request real.2 := by
  unfold transact
  rw [onPreTransact_get h hboxes hget htakes]
  rcases onPostTransact_cases (s.checked env callingUid) x env callingUid
    (real.2.filter fun b => b ≠ []) hget with
    ⟨hskip, hnone⟩ | ⟨b, response, shared, bytes, hkeystore, henforced, hb, hresponse, hnamed, hpost, hlength, hkeeps⟩
  · simp only [hskip, true_iff]
    refine ⟨fun _ _ _ hkeystore henforced b response hreal hne hresponse hnamed => ?_,
      fun _ hother => absurd hget hother⟩
    refine absurd hnamed (hnone b response hkeystore henforced ?_ hresponse)
    rw [hreal, Option.filter_some, if_pos (by simpa using hne)]
  · obtain ⟨hreal, hne⟩ := Option.filter_eq_some_iff.1 hb
    simp only [hpost, createByteArrayReply]
    rw [hreal]
    constructor
    · intro heq
      refine ⟨fun _ _ _ _ _ b' response' hb' _ hresponse' _ => ?_, fun _ hother => absurd hget hother⟩
      cases hb'
      have hbytes := replyValue_byteArrayReply hlength
      rw [Option.some.inj heq, hresponse] at hbytes
      cases hbytes
      rw [hresponse] at hresponse'
      cases hresponse'
      exact ⟨(Option.some.inj heq).symm, hkeeps.1 rfl⟩
    · intro huntouched
      obtain ⟨hcanonical, hkept⟩ := huntouched.get hboxes hget htakes hkeystore henforced b response rfl
        (by simpa using hne) hresponse hnamed
      rw [hkeeps.2 hkept, ← hcanonical]

/-- A transaction that no post-hook sees. -/
theorem transact_reply (hcontinue : (s.onPreTransact P env callingUid request).2.1 ≠ .Continue) :
    (s.transact P x env callingUid request real).2.2 = real.2 ↔
      ∀ code reply, (s.onPreTransact P env callingUid request).2.1 = .OverrideReply code reply →
        real.2 = some reply := by
  unfold transact
  generalize s.onPreTransact P env callingUid request = answer at hcontinue ⊢
  obtain ⟨s', result, callbacks⟩ := answer
  cases result with
  | Skip => simp
  | Continue => exact absurd rfl hcontinue
  | OverrideReply code reply => simp [eq_comm]

end KeystoreInterceptor

open KeystoreInterceptor in
/-- The keystore's own reply is delivered to a plain AUTO caller exactly if nothing takes its place. -/
theorem KeystoreInterceptor.legacy_plainAuto_untouched_iff (s : KeystoreInterceptor) (P : Platform) (x : X509)
    (env : Env) (callingUid : Int) (request : LegacyRequest) (real : BitVec 32 × Option Bytes)
    (h : s.shared.PlainAutoCaller env callingUid) :
    (s.transact P x env callingUid request real).2.2 = real.2 ↔
      s.LegacyUntouched x env callingUid request real.2 := by
  by_cases hget : request.code = .get
  · by_cases htaken : s.shared.hasKeyboxes = true ∧ s.TakesGet callingUid
    · exact transact_get_untouched_iff h htaken.1 hget htaken.2
    · have hskip := onPreTransact_get_left (P := P) h hget htaken
      rw [transact_reply (by rw [hskip]; simp), hskip]
      refine iff_of_true (by simp) ⟨fun hboxes _ htakes => absurd ⟨hboxes, htakes⟩ htaken,
        fun _ hother => absurd hget hother⟩
  · have hanswer := onPreTransact_other (P := P) h hget
    rw [transact_reply (by rw [hanswer]; split_ifs <;> simp [createSuccessReply]), hanswer]
    split_ifs with hforged
    · simp only [Bool.and_eq_true] at hforged
      constructor
      · exact fun hsame => ⟨fun _ heq => absurd heq hget, fun _ _ _ _ => hsame _ _ rfl⟩
      · intro huntouched code reply heq
        cases heq
        exact huntouched.other hforged.1.1 hget hforged.1.2 hforged.2
    · simp only [Bool.and_eq_true, not_and, and_imp] at hforged
      refine iff_of_true (by simp) ⟨fun _ heq => absurd heq hget, fun hboxes _ hgenerate hanswers => ?_⟩
      exact absurd hanswers (hforged hboxes hgenerate)

/-! ## A `get` of a plain AUTO app -/

namespace Demo

/-- Certificates are their own encodings, the attested ones begin with `0x30`, and a keybox signs a leaf
with a byte of its own. -/
def x509 : X509 where
  generateCertificate b := if b = [] then none else some ⟨b⟩
  hasAttestationExtension leaf := leaf.encoded.head? = some 0x30
  publicKeyAlgorithm _ := "EC"
  rebuildLeaf keybox _ _ := some ⟨0x31 :: keybox.keyPair.privateKey.take 1⟩
  generateCertificate_encoded {b leaf} h := by
    split_ifs at h with hnil
    cases h
    exact if_neg hnil
  length_rebuildLeaf {keybox leaf hacked uid} h := by
    cases h
    have hone := List.length_take_le 1 keybox.keyPair.privateKey
    rw [List.length_cons]
    omega

/-- The legacy interceptor with a keybox and two apps in these modes. -/
def legacy (m m' : Mode) : KeystoreInterceptor :=
  { shared := { config := { packageModes := modes m m' }, keyboxes } }

/-- The same, with the packages that the first app had once, of which one is listed for forging. -/
def legacyOnce : KeystoreInterceptor :=
  { shared := { config := { packageModes := modes .AUTO .GENERATE,
                            uidPackages := AList.insert owner ["com.other"] ∅ }, keyboxes } }

def getUserCertificate : LegacyRequest := { code := .get, keyAlias := some "USRCERT_a" }

def generateLegacy : LegacyRequest :=
  { code := .generateKey, keyAlias := some "USRPKEY_a", arguments := some [⟨Tag.ALGORITHM, .int Algorithm.EC⟩] }

def askLegacy : LegacyRequest := { code := .getKeyCharacteristics, keyAlias := some "USRPKEY_a" }

end Demo

namespace KeystoreInterceptor

open Demo

/-- A leaf that is not attested is delivered as it is, and so is the reply about a key that was never made. -/
theorem legacy_plainAuto_untouched_unattested :
    ((legacy .AUTO .AUTO).transact platform x509 (env 0) owner getUserCertificate
        (0, some (byteArrayReply [0x32, 1]))).2.2 = some (byteArrayReply [0x32, 1]) ∧
      (legacyOnce.transact platform x509 (env 0) owner askLegacy (0, some [7])).2.2 = some [7] := by
  constructor
  · refine (legacy_plainAuto_untouched_iff _ platform _ _ _ _ _ ⟨["com.owner"], by decide, by decide⟩).2
      ⟨?_, fun _ hother => absurd rfl hother⟩
    intro _ _ _ _ _ b response hb _ hresponse _
    cases hb
    rw [replyValue_byteArrayReply (by decide)] at hresponse
    cases hresponse
    refine ⟨rfl, fun _ signed hsigned => ?_, fun huser => ?_⟩
    · cases hsigned
    · cases huser
  · refine (legacy_plainAuto_untouched_iff _ platform _ _ _ _ _ ⟨["com.owner"], by decide, by decide⟩).2
      ⟨fun _ hget => ?_, fun _ _ _ hanswers => ?_⟩
    · cases hget
    · cases hanswers

/-- An attested leaf of a plain AUTO app is signed again; and for packages that an app has no longer, its
key is generated by the hook. -/
theorem legacy_plainAuto_resigned :
    ((legacy .AUTO .AUTO).shared.PlainAutoCaller (env 0) owner ∧
      ((legacy .AUTO .AUTO).transact platform x509 (env 0) owner getUserCertificate
        (0, some (byteArrayReply [0x30, 1]))).2.2 ≠ some (byteArrayReply [0x30, 1])) ∧
    legacyOnce.shared.PlainAutoCaller (env 0) owner ∧
      (legacyOnce.transact platform x509 (env 0) owner generateLegacy (0, some [7])).2.2 = some successReply ∧
      successReply ≠ [7] :=
  ⟨⟨⟨["com.owner"], by decide, by decide⟩, by decide⟩, ⟨["com.owner"], by decide, by decide⟩, by decide,
    by decide⟩

end KeystoreInterceptor

end TrickyStore
