import TrickyStore.Model.Operation

/-!
# The parameters of a software operation

`authorizeOperation` checks the digest, padding, block mode and MGF digest of a request, `create` builds an
engine from the same request with defaults of its own.  What an engine uses is read off the algorithm
names that it is set up with.
-/

open Lib

namespace TrickyStore

/-! ## The names of the crypto providers -/

def digestNumbers : List Int :=
  [KeymasterDefs.KM_DIGEST_SHA1, KeymasterDefs.KM_DIGEST_SHA_2_224, KeymasterDefs.KM_DIGEST_SHA_2_256,
    KeymasterDefs.KM_DIGEST_SHA_2_384, KeymasterDefs.KM_DIGEST_SHA_2_512]

/-- The digest and the padding of a signature name. -/
def signatureNames : List (String × Int × Option Int) :=
  digestNumbers.flatMap fun d =>
    [(digestName d false ++ "withECDSA", d, none),
      (digestName d false ++ "withRSA", d, some KeymasterDefs.KM_PAD_RSA_PKCS1_1_5_SIGN),
      (digestName d false ++ "withRSA/PSS", d, some KeymasterDefs.KM_PAD_RSA_PSS)]

def macNames : List (String × Int) := digestNumbers.map fun d => ("Hmac" ++ digestName d false, d)

def messageDigestNames : List (String × Int) := digestNumbers.map fun d => (digestName d true, d)

def modeNames : List (String × Int) :=
  [("ECB", KeymasterDefs.KM_MODE_ECB), ("CBC", KeymasterDefs.KM_MODE_CBC), ("CTR", KeymasterDefs.KM_MODE_CTR),
    ("GCM", KeymasterDefs.KM_MODE_GCM)]

def paddingNames : List (String × Int) :=
  [("NoPadding", KeymasterDefs.KM_PAD_NONE), ("OAEPPadding", KeymasterDefs.KM_PAD_RSA_OAEP),
    ("PKCS1Padding", KeymasterDefs.KM_PAD_RSA_PKCS1_1_5_ENCRYPT), ("PKCS7Padding", KeymasterDefs.KM_PAD_PKCS7)]

/-- What a name stands for. -/
def meaning {α : Type} (names : List (String × α)) (name : String) : Option α :=
  (names.find? fun row => row.1 = name).map Prod.snd

/-- The algorithm, the mode or the padding of a transformation. -/
def component (transformation : String) (i : ℕ) : String :=
  String.ofList (((transformation.toList.splitOn '/')[i]?).getD [])

namespace OpEngine

def usedDigest : OpEngine → Option Int
  | .signature algorithm _ _ => (meaning signatureNames algorithm).map Prod.fst
  | .mac algorithm _ _ => meaning macNames algorithm
  | .cipher _ _ _ (some (.oaep digest _)) => meaning messageDigestNames digest
  | _ => none

def usedMgfDigest : OpEngine → Option Int
  | .cipher _ _ _ (some (.oaep _ mgf1Digest)) => meaning messageDigestNames mgf1Digest
  | _ => none

def usedPadding : OpEngine → Option Int
  | .signature algorithm _ _ => (meaning signatureNames algorithm).bind Prod.snd
  | .cipher transformation _ _ _ => meaning paddingNames (component transformation 2)
  | _ => none

/-- RSA has no block mode, whatever its transformation says. -/
def usedBlockMode : OpEngine → Option Int
  | .cipher transformation _ _ _ =>
    if component transformation 0 = "AES" then meaning modeNames (component transformation 1) else none
  | _ => none

end OpEngine

/-! ## What is authorized -/

/-- A value of the request, or the only one of the key. -/
def requestedOrOnly (v : Int) (vs : List Int) : Option Int :=
  if v ≠ 0 then some v
  else match vs with
    | [x] => some x
    | _ => none

/-- The engine uses the parameters of the request, and only such as the key allows. -/
structure UsesAuthorized (p : KeyGenParameters) (op : OpRequest) (engine : OpEngine) : Prop where
  digest : ∀ d, engine.usedDigest = some d → d = op.digest ∧ (p.digest ≠ [] → d ∈ p.digest)
  padding : ∀ x, engine.usedPadding = some x →
    requestedOrOnly op.padding p.padding = some x ∧ (p.padding ≠ [] → x ∈ p.padding)
  blockMode : ∀ m, engine.usedBlockMode = some m →
    requestedOrOnly op.blockMode p.blockMode = some m ∧ (p.blockMode ≠ [] → m ∈ p.blockMode)
  mgfDigest : ∀ d, engine.usedMgfDigest = some d →
    d = (if op.mgfDigest ≠ 0 then op.mgfDigest else KeymasterDefs.KM_DIGEST_SHA1) ∧
      (p.mgfDigest ≠ [] → d ∈ p.mgfDigest)

/-- A value as `create` completes it. -/
def requestedOrFirst (v : Int) (vs : List Int) : Option Int := if v ≠ 0 then some v else vs.head?

/-- The operation encrypts or decrypts. -/
def isCipher (p : KeyGenParameters) (op : OpRequest) : Prop :=
  p.algorithm = Algorithm.AES ∨ p.algorithm = Algorithm.RSA ∧ op.purpose = KeyPurpose.DECRYPT

/-- With OAEP; in the mode GCM the parameters of OAEP are not passed on. -/
def isOaep (p : KeyGenParameters) (op : OpRequest) : Prop :=
  isCipher p op ∧ op.padding = KeymasterDefs.KM_PAD_RSA_OAEP ∧
    requestedOrFirst op.blockMode p.blockMode ≠ some KeymasterDefs.KM_MODE_GCM

/-- The operation signs or authenticates. -/
def isSigning (p : KeyGenParameters) (op : OpRequest) : Prop :=
  p.algorithm = Algorithm.HMAC ∨
    (p.algorithm = Algorithm.EC ∨ p.algorithm = Algorithm.RSA) ∧ op.purpose = KeyPurpose.SIGN

/-- The request itself names what the engine needs, by a value that has a name. -/
structure Named (p : KeyGenParameters) (op : OpRequest) : Prop where
  digest : isSigning p op ∨ isOaep p op → op.digest ∈ digestNumbers
  signaturePadding : p.algorithm = Algorithm.RSA → op.purpose = KeyPurpose.SIGN →
    op.padding = KeymasterDefs.KM_PAD_RSA_PSS ∨ op.padding = KeymasterDefs.KM_PAD_RSA_PKCS1_1_5_SIGN
  cipherPadding : isCipher p op → op.padding ∈ paddingNames.map Prod.snd
  blockMode : p.algorithm = Algorithm.AES → op.blockMode ∈ modeNames.map Prod.snd
  mgfDigest : isOaep p op → op.mgfDigest = 0 ∨ op.mgfDigest ∈ digestNumbers

/-! ## Names and numbers -/

/-- The digest that a number's name stands for. -/
def namedDigest (d : Int) : Int := if d ∈ digestNumbers then d else KeymasterDefs.KM_DIGEST_SHA_2_256

theorem namedDigest_mem (d : Int) : namedDigest d ∈ digestNumbers := by
  unfold namedDigest
  split_ifs with h
  · exact h
  · decide

theorem digestSuffix_namedDigest (d : Int) : digestSuffix d = digestSuffix (namedDigest d) := by
  unfold namedDigest
  split_ifs with h
  · rfl
  · simp only [digestNumbers, List.mem_cons, List.not_mem_nil, or_false, not_or] at h
    obtain ⟨h1, h2, h3, h4, h5⟩ := h
    rw [digestSuffix, if_neg h1, if_neg h2, if_neg h3, if_neg h4, if_neg h5]
    rfl

theorem digestName_namedDigest (d : Int) (hyphenated : Bool) :
    digestName d hyphenated = digestName (namedDigest d) hyphenated := by
  unfold digestName
  rw [digestSuffix_namedDigest]

theorem meaning_ecdsa (d : Int) :
    meaning signatureNames (digestName d false ++ "withECDSA") = some (namedDigest d, none) := by
  have hall : ∀ d ∈ digestNumbers,
      meaning signatureNames (digestName d false ++ "withECDSA") = some (d, none) := by decide
  rw [digestName_namedDigest]
  exact hall _ (namedDigest_mem d)

theorem meaning_rsa (d : Int) : meaning signatureNames (digestName d false ++ "withRSA") =
    some (namedDigest d, some KeymasterDefs.KM_PAD_RSA_PKCS1_1_5_SIGN) := by
  have hall : ∀ d ∈ digestNumbers, meaning signatureNames (digestName d false ++ "withRSA") =
      some (d, some KeymasterDefs.KM_PAD_RSA_PKCS1_1_5_SIGN) := by decide
  rw [digestName_namedDigest]
  exact hall _ (namedDigest_mem d)

theorem meaning_pss (d : Int) : meaning signatureNames (digestName d false ++ "withRSA/PSS") =
    some (namedDigest d, some KeymasterDefs.KM_PAD_RSA_PSS) := by
  have hall : ∀ d ∈ digestNumbers, meaning signatureNames (digestName d false ++ "withRSA/PSS") =
      some (d, some KeymasterDefs.KM_PAD_RSA_PSS) := by decide
  rw [digestName_namedDigest]
  exact hall _ (namedDigest_mem d)

theorem meaning_mac (d : Int) : meaning macNames ("Hmac" ++ digestName d false) = some (namedDigest d) := by
  have hall : ∀ d ∈ digestNumbers, meaning macNames ("Hmac" ++ digestName d false) = some d := by decide
  rw [digestName_namedDigest]
  exact hall _ (namedDigest_mem d)

theorem meaning_messageDigest (d : Int) :
    meaning messageDigestNames (digestName d true) = some (namedDigest d) := by
  have hall : ∀ d ∈ digestNumbers, meaning messageDigestNames (digestName d true) = some d := by decide
  rw [digestName_namedDigest]
  exact hall _ (namedDigest_mem d)

/-- The MGF digest that a number's specification stands for. -/
def namedMgfDigest (d : Int) : Int := if d ∈ digestNumbers then d else KeymasterDefs.KM_DIGEST_SHA1

theorem meaning_mgf1 (d : Int) :
    meaning messageDigestNames (SoftwareOperationBinder.mgf1ParameterSpec d) = some (namedMgfDigest d) := by
  unfold namedMgfDigest
  split_ifs with h
  · have hall : ∀ d ∈ digestNumbers,
        meaning messageDigestNames (SoftwareOperationBinder.mgf1ParameterSpec d) = some d := by decide
    exact hall d h
  · simp only [digestNumbers, List.mem_cons, List.not_mem_nil, or_false, not_or] at h
    obtain ⟨h1, h2, h3, h4, h5⟩ := h
    rw [SoftwareOperationBinder.mgf1ParameterSpec, if_neg h1, if_neg h2, if_neg h3, if_neg h4, if_neg h5]
    decide

/-! ## The engine of an authorized request -/

/-- The digest as `create` completes it. -/
def effectiveDigest (p : KeyGenParameters) (op : OpRequest) : Int :=
  if op.digest ≠ 0 then op.digest
  else (p.digest.find? fun x => x ≠ 0).getD KeymasterDefs.KM_DIGEST_SHA_2_256

def modeName (blockMode : Option Int) : String :=
  if blockMode = some KeymasterDefs.KM_MODE_ECB then "ECB"
  else if blockMode = some KeymasterDefs.KM_MODE_CBC then "CBC"
  else if blockMode = some KeymasterDefs.KM_MODE_CTR then "CTR"
  else if blockMode = some KeymasterDefs.KM_MODE_GCM then "GCM"
  else "ECB"

def paddingName (padding : Option Int) : String :=
  if padding = some KeymasterDefs.KM_PAD_NONE then "NoPadding"
  else if padding = some KeymasterDefs.KM_PAD_RSA_OAEP then "OAEPPadding"
  else if padding = some KeymasterDefs.KM_PAD_RSA_PKCS1_1_5_ENCRYPT ∨
      padding = some KeymasterDefs.KM_PAD_RSA_PKCS1_1_5_SIGN then "PKCS1Padding"
  else if padding = some KeymasterDefs.KM_PAD_PKCS7 then "PKCS7Padding"
  else "NoPadding"

def cipherSpec (op : OpRequest) (digest : Int) (padding blockMode : Option Int) : Option CipherSpec :=
  if blockMode = some KeymasterDefs.KM_MODE_GCM then
    some (.gcm (op.macLength.getD 128) (op.nonce.getD (List.replicate 12 0)))
  else if padding = some KeymasterDefs.KM_PAD_RSA_OAEP then
    some (.oaep (digestName digest true) (SoftwareOperationBinder.mgf1ParameterSpec op.mgfDigest))
  else op.nonce.map CipherSpec.iv

/-- The key of a cipher: the secret one, or a half of the pair if there is one. -/
def cipherKey (info : Info) (purpose : Int) : Option CipherKey :=
  match info.secretKey with
  | some k => some (.secret k)
  | none => info.keyPair.map fun pair =>
      .half (if purpose = KeyPurpose.ENCRYPT then pair.publicKey else pair.privateKey)

/-- The engine of an authorized request, by the algorithm of its key and by its purpose.  There is none for
the purposes that are not here, whatever the key allows, nor for a key without the material. -/
inductive Built (info : Info) (op : OpRequest) : OpEngine → Prop
  | mac (key : SecretKey) : info.params.algorithm = Algorithm.HMAC →
      (op.purpose = KeyPurpose.SIGN ∨ op.purpose = KeyPurpose.VERIFY) → info.secretKey = some key →
      Built info op (.mac ("Hmac" ++ digestName (effectiveDigest info.params op) false) key
        (op.purpose = KeyPurpose.VERIFY))
  | ecdsa (pair : KeyPair) : info.params.algorithm = Algorithm.EC → op.purpose = KeyPurpose.SIGN →
      info.keyPair = some pair →
      Built info op (.signature (digestName (effectiveDigest info.params op) false ++ "withECDSA")
        pair.privateKey false)
  | pss (pair : KeyPair) : info.params.algorithm = Algorithm.RSA → op.purpose = KeyPurpose.SIGN →
      info.keyPair = some pair →
      requestedOrFirst op.padding info.params.padding = some KeymasterDefs.KM_PAD_RSA_PSS →
      Built info op (.signature (digestName (effectiveDigest info.params op) false ++ "withRSA/PSS")
        pair.privateKey false)
  | rsa (pair : KeyPair) : info.params.algorithm = Algorithm.RSA → op.purpose = KeyPurpose.SIGN →
      info.keyPair = some pair →
      requestedOrFirst op.padding info.params.padding ≠ some KeymasterDefs.KM_PAD_RSA_PSS →
      Built info op (.signature (digestName (effectiveDigest info.params op) false ++ "withRSA")
        pair.privateKey false)
  | agreement (pair : KeyPair) : info.params.algorithm = Algorithm.EC → op.purpose = KeyPurpose.AGREE_KEY →
      info.keyPair = some pair → Built info op (.keyAgreement "ECDH" pair.privateKey)
  | rsaCipher (key : CipherKey) : info.params.algorithm = Algorithm.RSA → op.purpose = KeyPurpose.DECRYPT →
      cipherKey info op.purpose = some key →
      Built info op (.cipher ("RSA" ++ "/" ++ modeName (requestedOrFirst op.blockMode info.params.blockMode) ++
        "/" ++ paddingName (requestedOrFirst op.padding info.params.padding))
          (op.purpose = KeyPurpose.ENCRYPT) key
          (cipherSpec op (effectiveDigest info.params op) (requestedOrFirst op.padding info.params.padding)
            (requestedOrFirst op.blockMode info.params.blockMode)))
  | aesCipher (key : CipherKey) : info.params.algorithm = Algorithm.AES →
      (op.purpose = KeyPurpose.ENCRYPT ∨ op.purpose = KeyPurpose.DECRYPT) →
      cipherKey info op.purpose = some key →
      Built info op (.cipher ("AES" ++ "/" ++ modeName (requestedOrFirst op.blockMode info.params.blockMode) ++
        "/" ++ paddingName (requestedOrFirst op.padding info.params.padding))
          (op.purpose = KeyPurpose.ENCRYPT) key
          (cipherSpec op (effectiveDigest info.params op) (requestedOrFirst op.padding info.params.padding)
            (requestedOrFirst op.blockMode info.params.blockMode)))

section Authorized

variable {p : KeyGenParameters} {op : OpRequest} {now : Int}

/-- What the checks leave. -/
structure Authorized (p : KeyGenParameters) (op : OpRequest) : Prop where
  purpose : 0 ≤ op.purpose
  asymmetric : p.algorithm = Algorithm.EC ∨ p.algorithm = Algorithm.RSA →
    op.purpose ≠ KeyPurpose.VERIFY ∧ op.purpose ≠ KeyPurpose.ENCRYPT
  agreement : op.purpose = KeyPurpose.AGREE_KEY → p.algorithm = Algorithm.EC
  digest : p.digest ≠ [] → op.digest ∈ p.digest
  padding : p.padding ≠ [] → op.padding ∈ p.padding
  blockMode : p.blockMode ≠ [] → op.blockMode ∈ p.blockMode
  mgfDigest : p.mgfDigest ≠ [] →
    (if op.mgfDigest ≠ 0 then op.mgfDigest else KeymasterDefs.KM_DIGEST_SHA1) ∈ p.mgfDigest

theorem ite_some_eq_none {α : Type} {c : Prop} [Decidable c] {e : α} {o : Option α} :
    (if c then some e else o) = none ↔ ¬ c ∧ o = none := by
  split_ifs with h
  · exact iff_of_false (by simp) fun hand => hand.1 h
  · exact ⟨fun ho => ⟨h, ho⟩, fun hand => hand.2⟩

theorem authorized_of_none (h : authorizeOperation p op now = none) : Authorized p op := by
  unfold authorizeOperation at h
  simp only [ite_some_eq_none] at h
  obtain ⟨h1, h2, h3, -, -, -, -, -, h9, h10, h11, h12, -⟩ := h
  refine ⟨by omega, ?_, ?_, ?_, ?_, ?_, ?_⟩
  · intro hasymmetric
    exact ⟨fun heq => h2 ⟨hasymmetric, .inl heq⟩, fun heq => h2 ⟨hasymmetric, .inr heq⟩⟩
  · intro heq
    by_contra hne
    exact h3 ⟨heq, hne⟩
  · intro hne
    by_contra hnot
    exact h9 ⟨hne, hnot⟩
  · intro hne
    by_contra hnot
    exact h10 ⟨hne, hnot⟩
  · intro hne
    by_contra hnot
    exact h11 ⟨hne, hnot⟩
  · intro hne
    by_contra hnot
    exact h12 ⟨hne, hnot⟩

variable {info : Info} {engine : OpEngine}

open SoftwareOperationBinder

theorem requireKeyPair_ok {pair : KeyPair} : requireKeyPair info = .ok pair ↔ info.keyPair = some pair := by
  unfold requireKeyPair
  cases info.keyPair <;> simp

theorem buildCipher_ok {digest : Int} {padding blockMode : Option Int} {purpose : Int} {name : String}
    (hname : info.params.algorithm = Algorithm.RSA ∧ name = "RSA" ∨
      info.params.algorithm = Algorithm.AES ∧ name = "AES") :
    buildCipher op digest padding blockMode info purpose = .ok engine ↔
      ∃ key, cipherKey info purpose = some key ∧
        engine = .cipher (name ++ "/" ++ modeName blockMode ++ "/" ++ paddingName padding)
          (purpose = KeyPurpose.ENCRYPT) key (cipherSpec op digest padding blockMode) := by
  have hbuilt : buildCipher op digest padding blockMode info purpose =
      (cipherKey info purpose).elim (.error (.other none)) fun key =>
        .ok (.cipher (name ++ "/" ++ modeName blockMode ++ "/" ++ paddingName padding)
          (purpose = KeyPurpose.ENCRYPT) key (cipherSpec op digest padding blockMode)) := by
    unfold buildCipher cipherKey requireKeyPair
    obtain ⟨halgorithm, rfl⟩ | ⟨halgorithm, rfl⟩ := hname
    case' inl => rw [if_pos halgorithm]
    case' inr => rw [if_neg (by rw [halgorithm]; decide), if_pos halgorithm]
    all_goals
      cases info.secretKey with
      | some k => rfl
      | none =>
        cases info.keyPair with
        | none => rfl
        | some pair => by_cases h : purpose = KeyPurpose.ENCRYPT <;> simp [h, bind, Except.bind] <;> rfl
  rw [hbuilt]
  cases cipherKey info purpose with
  | none => simp
  | some key => simp [eq_comm]

theorem buildCipher_ec {digest : Int} {padding blockMode : Option Int} {purpose : Int}
    (h : info.params.algorithm = Algorithm.EC) :
    buildCipher op digest padding blockMode info purpose ≠ .ok engine := by
  unfold buildCipher
  rw [if_neg (by rw [h]; decide), if_neg (by rw [h]; decide)]
  exact fun h => nomatch h

theorem signatureAlgorithm_eq {algorithm digest : Int} {padding : Option Int} {name : String}
    (h : signatureAlgorithm algorithm digest padding = .ok name) :
    algorithm = Algorithm.EC ∧ name = digestName digest false ++ "withECDSA" ∨
      algorithm = Algorithm.RSA ∧ padding = some KeymasterDefs.KM_PAD_RSA_PSS ∧
        name = digestName digest false ++ "withRSA/PSS" ∨
      algorithm = Algorithm.RSA ∧ padding ≠ some KeymasterDefs.KM_PAD_RSA_PSS ∧
        name = digestName digest false ++ "withRSA" := by
  unfold signatureAlgorithm at h
  split_ifs at h with hec hrsa hpss
  · exact .inl ⟨hec, (Except.ok.inj h).symm⟩
  · exact .inr (.inl ⟨hrsa, hpss, (Except.ok.inj h).symm⟩)
  · exact .inr (.inr ⟨hrsa, hpss, (Except.ok.inj h).symm⟩)

/-- An authorized request gets no other engine. -/
theorem built_of_selectEngine (hauth : Authorized info.params op) (h : selectEngine info op = .ok engine) :
    Built info op engine := by
  have hpurpose : op.purpose ≥ 0 := hauth.purpose
  unfold selectEngine at h
  rw [if_pos hpurpose] at h
  dsimp only [bind, Except.bind] at h
  have hdigest : (if op.digest ≠ 0 then op.digest
      else (info.params.digest.find? fun x => x ≠ 0).getD KeymasterDefs.KM_DIGEST_SHA_2_256) =
        effectiveDigest info.params op := rfl
  have hpadding : (if op.padding ≠ 0 then some op.padding else info.params.padding.head?) =
      requestedOrFirst op.padding info.params.padding := rfl
  have hmode : (if op.blockMode ≠ 0 then some op.blockMode else info.params.blockMode.head?) =
      requestedOrFirst op.blockMode info.params.blockMode := rfl
  rw [hdigest, hpadding, hmode] at h
  by_cases hhmac : info.params.algorithm = Algorithm.HMAC
  · rw [if_pos hhmac] at h
    split_ifs at h with hpurpose
    cases hsecret : info.secretKey with
    | none =>
      rw [hsecret] at h
      exact nomatch h
    | some k =>
      rw [hsecret] at h
      obtain rfl := Except.ok.inj h
      exact .mac k hhmac (by tauto) hsecret
  rw [if_neg hhmac] at h
  by_cases hasymmetric : info.params.algorithm = Algorithm.EC ∨ info.params.algorithm = Algorithm.RSA
  · obtain ⟨hverify, hencrypt⟩ := hauth.asymmetric hasymmetric
    rw [if_pos hasymmetric, if_neg hverify] at h
    split_ifs at h with hsign hagree hcipher
    · cases hname : signatureAlgorithm info.params.algorithm (effectiveDigest info.params op)
          (requestedOrFirst op.padding info.params.padding) with
      | error t =>
        rw [hname] at h
        exact nomatch h
      | ok name =>
        cases hpair : requireKeyPair info with
        | error t =>
          rw [hname, hpair] at h
          exact nomatch h
        | ok pair =>
          rw [hname, hpair] at h
          obtain rfl := Except.ok.inj h
          have hpair := requireKeyPair_ok.1 hpair
          obtain ⟨hec, rfl⟩ | ⟨hrsa, hpss, rfl⟩ | ⟨hrsa, hpss, rfl⟩ := signatureAlgorithm_eq hname
          · exact .ecdsa pair hec hsign hpair
          · exact .pss pair hrsa hsign hpair hpss
          · exact .rsa pair hrsa hsign hpair hpss
    · cases hpair : requireKeyPair info with
      | error t =>
        rw [hpair] at h
        exact nomatch h
      | ok pair =>
        rw [hpair] at h
        obtain rfl := Except.ok.inj h
        exact .agreement pair (hauth.agreement hagree) hagree (requireKeyPair_ok.1 hpair)
    · have hdecrypt : op.purpose = KeyPurpose.DECRYPT := hcipher.resolve_left hencrypt
      obtain hec | hrsa := hasymmetric
      · exact absurd h (buildCipher_ec hec)
      · obtain ⟨key, hkey, rfl⟩ := (buildCipher_ok (.inl ⟨hrsa, rfl⟩)).1 h
        exact .rsaCipher key hrsa hdecrypt hkey
  · rw [if_neg hasymmetric] at h
    split_ifs at h with haes hcipher
    obtain ⟨key, hkey, rfl⟩ := (buildCipher_ok (.inr ⟨haes, rfl⟩)).1 h
    exact .aesCipher key haes hcipher hkey

/-- A request that names its purpose gets the engine for it. -/
theorem selectEngine_of_built (h : Built info op engine) : selectEngine info op = .ok engine := by
  have hdigest : (if op.digest ≠ 0 then op.digest
      else (info.params.digest.find? fun x => x ≠ 0).getD KeymasterDefs.KM_DIGEST_SHA_2_256) =
        effectiveDigest info.params op := rfl
  have hpadding : (if op.padding ≠ 0 then some op.padding else info.params.padding.head?) =
      requestedOrFirst op.padding info.params.padding := rfl
  have hmode : (if op.blockMode ≠ 0 then some op.blockMode else info.params.blockMode.head?) =
      requestedOrFirst op.blockMode info.params.blockMode := rfl
  have hsigning {name : String} {pair : KeyPair} (hhmac : info.params.algorithm ≠ Algorithm.HMAC)
      (hasymmetric : info.params.algorithm = Algorithm.EC ∨ info.params.algorithm = Algorithm.RSA)
      (hsign : op.purpose = KeyPurpose.SIGN) (hpair : info.keyPair = some pair)
      (hname : signatureAlgorithm info.params.algorithm (effectiveDigest info.params op)
        (requestedOrFirst op.padding info.params.padding) = .ok name) :
      selectEngine info op = .ok (.signature name pair.privateKey false) := by
    unfold selectEngine
    dsimp only [bind, Except.bind]
    rw [hdigest, hpadding, hmode, if_pos (by rw [hsign]; decide), if_neg hhmac, if_pos hasymmetric,
      if_pos hsign, hname]
    dsimp only
    rw [requireKeyPair_ok.2 hpair]
  cases h with
  | ecdsa pair halgorithm hsign hpair =>
    exact hsigning (by rw [halgorithm]; decide) (.inl halgorithm) hsign hpair (if_pos halgorithm)
  | pss pair halgorithm hsign hpair hpss =>
    exact hsigning (by rw [halgorithm]; decide) (.inr halgorithm) hsign hpair
      ((if_neg (by rw [halgorithm]; decide)).trans ((if_pos halgorithm).trans (if_pos hpss)))
  | rsa pair halgorithm hsign hpair hpss =>
    exact hsigning (by rw [halgorithm]; decide) (.inr halgorithm) hsign hpair
      ((if_neg (by rw [halgorithm]; decide)).trans ((if_pos halgorithm).trans (if_neg hpss)))
  | mac key halgorithm hpurpose hsecret =>
    have hnonneg : op.purpose ≥ 0 := by rcases hpurpose with h | h <;> rw [h] <;> decide
    unfold selectEngine
    dsimp only [bind, Except.bind]
    rw [hdigest, hpadding, hmode, if_pos hnonneg, if_pos halgorithm, if_neg (by tauto), hsecret]
  | agreement pair halgorithm hagree hpair =>
    unfold selectEngine
    dsimp only [bind, Except.bind]
    rw [hdigest, hpadding, hmode, if_pos (by rw [hagree]; decide), if_neg (by rw [halgorithm]; decide),
      if_pos (.inl halgorithm), if_neg (by rw [hagree]; decide), if_neg (by rw [hagree]; decide),
      if_pos hagree, requireKeyPair_ok.2 hpair]
  | rsaCipher key halgorithm hdecrypt hkey =>
    unfold selectEngine
    dsimp only [bind, Except.bind]
    rw [hdigest, hpadding, hmode, if_pos (by rw [hdecrypt]; decide), if_neg (by rw [halgorithm]; decide),
      if_pos (.inr halgorithm), if_neg (by rw [hdecrypt]; decide), if_neg (by rw [hdecrypt]; decide),
      if_neg (by rw [hdecrypt]; decide), if_pos (.inr hdecrypt)]
    exact (buildCipher_ok (.inl ⟨halgorithm, rfl⟩)).2 ⟨key, hkey, rfl⟩
  | aesCipher key halgorithm hpurpose hkey =>
    have hnonneg : op.purpose ≥ 0 := by rcases hpurpose with h | h <;> rw [h] <;> decide
    unfold selectEngine
    dsimp only [bind, Except.bind]
    rw [hdigest, hpadding, hmode, if_pos hnonneg, if_neg (by rw [halgorithm]; decide),
      if_neg (by rw [halgorithm]; decide), if_pos halgorithm, if_pos hpurpose]
    exact (buildCipher_ok (.inr ⟨halgorithm, rfl⟩)).2 ⟨key, hkey, rfl⟩

theorem selectEngine_iff_built (hauth : Authorized info.params op) :
    selectEngine info op = .ok engine ↔ Built info op engine :=
  ⟨built_of_selectEngine hauth, selectEngine_of_built⟩

/-! ## The purposes without an engine -/

/-- The purposes that an algorithm has an engine for. -/
def enginePurposes (algorithm : Int) : List Int :=
  if algorithm = Algorithm.HMAC then [KeyPurpose.SIGN, KeyPurpose.VERIFY]
  else if algorithm = Algorithm.EC then [KeyPurpose.SIGN, KeyPurpose.AGREE_KEY]
  else if algorithm = Algorithm.RSA then [KeyPurpose.SIGN, KeyPurpose.DECRYPT]
  else if algorithm = Algorithm.AES then [KeyPurpose.ENCRYPT, KeyPurpose.DECRYPT]
  else []

theorem Built.purpose_mem (h : Built info op engine) :
    op.purpose ∈ enginePurposes info.params.algorithm := by
  cases h with
  | mac _ halgorithm hpurpose => rcases hpurpose with h | h <;> rw [halgorithm, h] <;> decide
  | ecdsa _ halgorithm hsign => rw [halgorithm, hsign]; decide
  | pss _ halgorithm hsign | rsa _ halgorithm hsign => rw [halgorithm, hsign]; decide
  | agreement _ halgorithm hagree => rw [halgorithm, hagree]; decide
  | rsaCipher _ halgorithm hdecrypt => rw [halgorithm, hdecrypt]; decide
  | aesCipher _ halgorithm hpurpose => rcases hpurpose with h | h <;> rw [halgorithm, h] <;> decide

/-! ## What the clauses come to -/

theorem digest_clause (hauth : Authorized p op) {o : Option Int}
    (h : o = some (namedDigest (effectiveDigest p op))) :
    (∀ d, o = some d → d = op.digest ∧ (p.digest ≠ [] → d ∈ p.digest)) ↔ op.digest ∈ digestNumbers := by
  subst h
  constructor
  · intro hclause
    rw [← (hclause _ rfl).1]
    exact namedDigest_mem _
  · rintro hmem d heq
    obtain rfl := Option.some.inj heq
    have hne : op.digest ≠ 0 := by
      intro hzero
      rw [hzero] at hmem
      exact absurd hmem (by decide)
    have hnamed : namedDigest (effectiveDigest p op) = op.digest := by
      rw [effectiveDigest, if_pos hne, namedDigest, if_pos hmem]
    rw [hnamed]
    exact ⟨rfl, hauth.digest⟩

theorem mgfDigest_clause (hauth : Authorized p op) {o : Option Int} (h : o = some (namedMgfDigest op.mgfDigest)) :
    (∀ d, o = some d → d = (if op.mgfDigest ≠ 0 then op.mgfDigest else KeymasterDefs.KM_DIGEST_SHA1) ∧
        (p.mgfDigest ≠ [] → d ∈ p.mgfDigest)) ↔
      op.mgfDigest = 0 ∨ op.mgfDigest ∈ digestNumbers := by
  subst h
  constructor
  · intro hclause
    by_cases hzero : op.mgfDigest = 0
    · exact .inl hzero
    · right
      have hnamed := (hclause _ rfl).1
      rw [if_pos hzero, namedMgfDigest] at hnamed
      split_ifs at hnamed with hmem
      · exact hmem
      · rw [← hnamed]
        decide
  · rintro hnamed d heq
    obtain rfl := Option.some.inj heq
    have hvalue : namedMgfDigest op.mgfDigest =
        if op.mgfDigest ≠ 0 then op.mgfDigest else KeymasterDefs.KM_DIGEST_SHA1 := by
      obtain hzero | hmem := hnamed
      · rw [hzero]
        decide
      · have hne : op.mgfDigest ≠ 0 := by
          intro hzero
          rw [hzero] at hmem
          exact absurd hmem (by decide)
        rw [namedMgfDigest, if_pos hmem, if_pos hne]
    rw [hvalue]
    exact ⟨rfl, hauth.mgfDigest⟩

/-- The defaults for a padding or a block mode do not count: a key that lets none be named has 0 in its
list. -/
theorem value_clause {v x : Int} {vs : List Int} (hauth : vs ≠ [] → v ∈ vs) (hx : x ≠ 0) {o : Option Int}
    (h : o = some x) :
    (∀ y, o = some y → requestedOrOnly v vs = some y ∧ (vs ≠ [] → y ∈ vs)) ↔ v = x := by
  subst h
  constructor
  · intro hclause
    have hvalue := (hclause x rfl).1
    unfold requestedOrOnly at hvalue
    split_ifs at hvalue with hv
    · exact Option.some.inj hvalue
    · split at hvalue
      · obtain rfl := Option.some.inj hvalue
        exact List.mem_singleton.1 (hauth (by simp))
      · exact nomatch hvalue
  · rintro rfl y heq
    obtain rfl := Option.some.inj heq
    exact ⟨if_pos hx, hauth⟩

theorem requestedOrFirst_of_ne {v : Int} {vs : List Int} (h : v ≠ 0) : requestedOrFirst v vs = some v := if_pos h

theorem meaning_mode (m : Option Int) : ∃ n ∈ modeNames.map Prod.snd,
    meaning modeNames (modeName m) = some n ∧ ∀ v ∈ modeNames.map Prod.snd, m = some v → v = n := by
  unfold modeName
  split_ifs with h1 h2 h3 h4
  · exact ⟨_, by decide, rfl, fun v _ h => Option.some.inj (h.symm.trans h1)⟩
  · exact ⟨_, by decide, rfl, fun v _ h => Option.some.inj (h.symm.trans h2)⟩
  · exact ⟨_, by decide, rfl, fun v _ h => Option.some.inj (h.symm.trans h3)⟩
  · exact ⟨_, by decide, rfl, fun v _ h => Option.some.inj (h.symm.trans h4)⟩
  · refine ⟨KeymasterDefs.KM_MODE_ECB, by decide, by decide, ?_⟩
    rintro v hv rfl
    simp only [modeNames, List.map_cons, List.map_nil, List.mem_cons, List.not_mem_nil, or_false] at hv
    rcases hv with rfl | rfl | rfl | rfl
    · rfl
    · exact absurd rfl h2
    · exact absurd rfl h3
    · exact absurd rfl h4

theorem meaning_padding (q : Option Int) : ∃ n ∈ paddingNames.map Prod.snd,
    meaning paddingNames (paddingName q) = some n ∧ ∀ v ∈ paddingNames.map Prod.snd, q = some v → v = n := by
  unfold paddingName
  split_ifs with h1 h2 h3 h4
  · exact ⟨KeymasterDefs.KM_PAD_NONE, by decide, by decide, fun v _ h => Option.some.inj (h.symm.trans h1)⟩
  · exact ⟨KeymasterDefs.KM_PAD_RSA_OAEP, by decide, by decide,
      fun v _ h => Option.some.inj (h.symm.trans h2)⟩
  · refine ⟨KeymasterDefs.KM_PAD_RSA_PKCS1_1_5_ENCRYPT, by decide, by decide, ?_⟩
    rintro v hv rfl
    obtain h | h := h3
    · exact Option.some.inj h
    · obtain rfl := Option.some.inj h
      exact absurd hv (by decide)
  · exact ⟨KeymasterDefs.KM_PAD_PKCS7, by decide, by decide, fun v _ h => Option.some.inj (h.symm.trans h4)⟩
  · refine ⟨KeymasterDefs.KM_PAD_NONE, by decide, by decide, ?_⟩
    rintro v hv rfl
    simp only [paddingNames, List.map_cons, List.map_nil, List.mem_cons, List.not_mem_nil, or_false] at hv
    rcases hv with rfl | rfl | rfl | rfl
    · rfl
    · exact absurd rfl h2
    · exact absurd (.inl rfl) h3
    · exact absurd rfl h4

theorem modeName_mem (m : Option Int) : modeName m ∈ modeNames.map Prod.fst := by
  unfold modeName
  split_ifs <;> decide

theorem paddingName_mem (q : Option Int) : paddingName q ∈ paddingNames.map Prod.fst := by
  unfold paddingName
  split_ifs <;> decide

/-- A transformation falls apart into the names it was made of. -/
theorem component_transformation {name : String} (hname : name ∈ ["RSA", "AES"]) (m q : Option Int) :
    component (name ++ "/" ++ modeName m ++ "/" ++ paddingName q) 0 = name ∧
      component (name ++ "/" ++ modeName m ++ "/" ++ paddingName q) 1 = modeName m ∧
      component (name ++ "/" ++ modeName m ++ "/" ++ paddingName q) 2 = paddingName q := by
  have hall : ∀ name ∈ ["RSA", "AES"], ∀ mode ∈ modeNames.map Prod.fst,
      ∀ padding ∈ paddingNames.map Prod.fst,
        component (name ++ "/" ++ mode ++ "/" ++ padding) 0 = name ∧
          component (name ++ "/" ++ mode ++ "/" ++ padding) 1 = mode ∧
          component (name ++ "/" ++ mode ++ "/" ++ padding) 2 = padding := by decide +kernel
  exact hall name hname _ (modeName_mem m) _ (paddingName_mem q)

/-! ## What each engine uses is what the request names -/

theorem no_clause {o : Option Int} (h : o = none) {q : Int → Prop} : ∀ d, o = some d → q d := by
  intro d hd
  rw [h] at hd
  exact nomatch hd

theorem not_isCipher (haes : p.algorithm ≠ Algorithm.AES)
    (hrsa : p.algorithm = Algorithm.RSA → op.purpose ≠ KeyPurpose.DECRYPT) : ¬ isCipher p op := by
  rintro (h | ⟨h, hdecrypt⟩)
  · exact haes h
  · exact hrsa h hdecrypt

theorem not_isSigning (hhmac : p.algorithm ≠ Algorithm.HMAC)
    (h : p.algorithm = Algorithm.EC ∨ p.algorithm = Algorithm.RSA → op.purpose ≠ KeyPurpose.SIGN) :
    ¬ isSigning p op := by
  rintro (heq | ⟨halgorithm, hsign⟩)
  · exact hhmac heq
  · exact h halgorithm hsign

/-- An engine without padding, mode and MGF digest, for a request that is no RSA signature and no cipher. -/
theorem uses_iff_of_digest_only (hauth : Authorized p op) (hsigning : isSigning p op)
    (hcipher : ¬ isCipher p op) (hrsa : p.algorithm ≠ Algorithm.RSA) (haes : p.algorithm ≠ Algorithm.AES)
    (hdigest : engine.usedDigest = some (namedDigest (effectiveDigest p op)))
    (hpadding : engine.usedPadding = none) (hmode : engine.usedBlockMode = none)
    (hmgf : engine.usedMgfDigest = none) : UsesAuthorized p op engine ↔ Named p op := by
  constructor
  · intro h
    refine ⟨fun _ => (digest_clause hauth hdigest).1 h.digest, fun heq => absurd heq hrsa,
      fun hc => absurd hc hcipher, fun heq => absurd heq haes, fun ho => absurd ho.1 hcipher⟩
  · intro h
    exact ⟨(digest_clause hauth hdigest).2 (h.digest (.inl hsigning)), no_clause hpadding, no_clause hmode,
      no_clause hmgf⟩

/-- An RSA signature. -/
theorem uses_iff_of_rsa_signature (hauth : Authorized p op) (hrsa : p.algorithm = Algorithm.RSA)
    (hsign : op.purpose = KeyPurpose.SIGN) {x : Int} (hx : x ≠ 0)
    (hused : op.padding = x ↔
      op.padding = KeymasterDefs.KM_PAD_RSA_PSS ∨ op.padding = KeymasterDefs.KM_PAD_RSA_PKCS1_1_5_SIGN)
    (hdigest : engine.usedDigest = some (namedDigest (effectiveDigest p op)))
    (hpadding : engine.usedPadding = some x) (hmode : engine.usedBlockMode = none)
    (hmgf : engine.usedMgfDigest = none) : UsesAuthorized p op engine ↔ Named p op := by
  have hcipher : ¬ isCipher p op :=
    not_isCipher (by rw [hrsa]; decide) fun _ => by rw [hsign]; decide
  constructor
  · intro h
    refine ⟨fun _ => (digest_clause hauth hdigest).1 h.digest,
      fun _ _ => hused.1 ((value_clause hauth.padding hx hpadding).1 h.padding),
      fun hc => absurd hc hcipher, fun heq => ?_, fun ho => absurd ho.1 hcipher⟩
    rw [hrsa] at heq
    exact absurd heq (by decide)
  · intro h
    exact ⟨(digest_clause hauth hdigest).2 (h.digest (.inl (.inr ⟨.inr hrsa, hsign⟩))),
      (value_clause hauth.padding hx hpadding).2 (hused.2 (h.signaturePadding hrsa hsign)),
      no_clause hmode, no_clause hmgf⟩

/-- The parameters of OAEP are passed on for an OAEP request outside GCM. -/
theorem cipherSpec_clause (hauth : Authorized p op) (hcipher : isCipher p op) {transformation : String}
    {encrypt : Bool} {key : CipherKey} (hpadding : op.padding ∈ paddingNames.map Prod.snd)
    (hengine : engine = .cipher transformation encrypt key (cipherSpec op (effectiveDigest p op)
      (requestedOrFirst op.padding p.padding) (requestedOrFirst op.blockMode p.blockMode))) :
    ((∀ d, engine.usedDigest = some d → d = op.digest ∧ (p.digest ≠ [] → d ∈ p.digest)) ∧
      ∀ d, engine.usedMgfDigest = some d →
        d = (if op.mgfDigest ≠ 0 then op.mgfDigest else KeymasterDefs.KM_DIGEST_SHA1) ∧
          (p.mgfDigest ≠ [] → d ∈ p.mgfDigest)) ↔
      (isOaep p op → op.digest ∈ digestNumbers ∧ (op.mgfDigest = 0 ∨ op.mgfDigest ∈ digestNumbers)) := by
  have hne : op.padding ≠ 0 := by
    intro hzero
    rw [hzero] at hpadding
    exact absurd hpadding (by decide)
  rw [requestedOrFirst_of_ne hne, cipherSpec] at hengine
  by_cases hgcm : requestedOrFirst op.blockMode p.blockMode = some KeymasterDefs.KM_MODE_GCM
  · rw [if_pos hgcm] at hengine
    subst hengine
    exact iff_of_true ⟨no_clause rfl, no_clause rfl⟩ fun ho => absurd hgcm ho.2.2
  · rw [if_neg hgcm] at hengine
    by_cases hoaep : op.padding = KeymasterDefs.KM_PAD_RSA_OAEP
    · rw [if_pos (by rw [hoaep])] at hengine
      subst hengine
      have hdigest := digest_clause hauth (meaning_messageDigest (effectiveDigest p op))
      have hmgf := mgfDigest_clause hauth (meaning_mgf1 op.mgfDigest)
      constructor
      · rintro ⟨hd, hm⟩ -
        exact ⟨hdigest.1 hd, hmgf.1 hm⟩
      · intro h
        obtain ⟨hd, hm⟩ := h ⟨hcipher, hoaep, hgcm⟩
        exact ⟨hdigest.2 hd, hmgf.2 hm⟩
    · rw [if_neg fun heq => hoaep (Option.some.inj heq)] at hengine
      subst hengine
      refine iff_of_true ?_ fun ho => absurd ho.2.1 hoaep
      cases op.nonce with
      | none => exact ⟨no_clause rfl, no_clause rfl⟩
      | some nonce => exact ⟨no_clause rfl, no_clause rfl⟩

/-- The value of the engine is the requested one just when this has a name. -/
theorem eq_iff_mem_named {v n : Int} {vs named : List Int} (hmem : n ∈ named) (hzero : 0 ∉ named)
    (hunique : ∀ v' ∈ named, requestedOrFirst v vs = some v' → v' = n) : v = n ↔ v ∈ named := by
  constructor
  · rintro rfl
    exact hmem
  · intro hv
    apply hunique v hv
    apply requestedOrFirst_of_ne
    rintro rfl
    exact hzero hv

theorem padding_clause (hauth : Authorized p op) {name : String} (hname : name ∈ ["RSA", "AES"])
    (m : Option Int) (encrypt : Bool) (key : CipherKey) (spec : Option CipherSpec) :
    (∀ x, (OpEngine.cipher (name ++ "/" ++ modeName m ++ "/" ++
        paddingName (requestedOrFirst op.padding p.padding)) encrypt key spec).usedPadding = some x →
      requestedOrOnly op.padding p.padding = some x ∧ (p.padding ≠ [] → x ∈ p.padding)) ↔
      op.padding ∈ paddingNames.map Prod.snd := by
  obtain ⟨n, hmem, hmeaning, hunique⟩ := meaning_padding (requestedOrFirst op.padding p.padding)
  have hn : n ≠ 0 := by
    rintro rfl
    exact absurd hmem (by decide)
  rw [← (component_transformation hname m _).2.2] at hmeaning
  exact (value_clause hauth.padding hn hmeaning).trans (eq_iff_mem_named hmem (by decide) hunique)

theorem blockMode_clause (hauth : Authorized p op) {q : Option Int} {encrypt : Bool} {key : CipherKey}
    {spec : Option CipherSpec} :
    (∀ x, (OpEngine.cipher ("AES" ++ "/" ++ modeName (requestedOrFirst op.blockMode p.blockMode) ++ "/" ++
        paddingName q) encrypt key spec).usedBlockMode = some x →
      requestedOrOnly op.blockMode p.blockMode = some x ∧ (p.blockMode ≠ [] → x ∈ p.blockMode)) ↔
      op.blockMode ∈ modeNames.map Prod.snd := by
  obtain ⟨n, hmem, hmeaning, hunique⟩ := meaning_mode (requestedOrFirst op.blockMode p.blockMode)
  have hn : n ≠ 0 := by
    rintro rfl
    exact absurd hmem (by decide)
  obtain ⟨hname, hmode, -⟩ := component_transformation (show "AES" ∈ ["RSA", "AES"] by decide)
    (requestedOrFirst op.blockMode p.blockMode) q
  have hused : (OpEngine.cipher ("AES" ++ "/" ++ modeName (requestedOrFirst op.blockMode p.blockMode) ++ "/" ++
      paddingName q) encrypt key spec).usedBlockMode = some n := by
    rw [OpEngine.usedBlockMode, if_pos hname, hmode]
    exact hmeaning
  exact (value_clause hauth.blockMode hn hused).trans (eq_iff_mem_named hmem (by decide) hunique)

/-- A cipher, with what is left to say about its block mode. -/
theorem uses_iff_of_cipher (hauth : Authorized p op) (hcipher : isCipher p op) (hsigning : ¬ isSigning p op)
    {name : String} (hname : name ∈ ["RSA", "AES"]) {encrypt : Bool} {key : CipherKey}
    (hengine : engine = .cipher (name ++ "/" ++ modeName (requestedOrFirst op.blockMode p.blockMode) ++ "/" ++
      paddingName (requestedOrFirst op.padding p.padding)) encrypt key
        (cipherSpec op (effectiveDigest p op) (requestedOrFirst op.padding p.padding)
          (requestedOrFirst op.blockMode p.blockMode)))
    (hmode : (∀ m, engine.usedBlockMode = some m →
        requestedOrOnly op.blockMode p.blockMode = some m ∧ (p.blockMode ≠ [] → m ∈ p.blockMode)) ↔
      (p.algorithm = Algorithm.AES → op.blockMode ∈ modeNames.map Prod.snd)) :
    UsesAuthorized p op engine ↔ Named p op := by
  have hpadding := padding_clause hauth hname (requestedOrFirst op.blockMode p.blockMode) encrypt key
    (cipherSpec op (effectiveDigest p op) (requestedOrFirst op.padding p.padding)
      (requestedOrFirst op.blockMode p.blockMode))
  rw [← hengine] at hpadding
  constructor
  · intro h
    have hmem := hpadding.1 h.padding
    have hoaep := (cipherSpec_clause hauth hcipher hmem hengine).1 ⟨h.digest, h.mgfDigest⟩
    refine ⟨?_, fun hrsa hsign => absurd (.inr ⟨.inr hrsa, hsign⟩) hsigning, fun _ => hmem,
      hmode.1 h.blockMode, fun ho => (hoaep ho).2⟩
    rintro (hs | ho)
    · exact absurd hs hsigning
    · exact (hoaep ho).1
  · intro h
    have hmem := h.cipherPadding hcipher
    obtain ⟨hdigest, hmgf⟩ := (cipherSpec_clause hauth hcipher hmem hengine).2 fun ho =>
      ⟨h.digest (.inr ho), h.mgfDigest ho⟩
    exact ⟨hdigest, hpadding.2 hmem, hmode.2 h.blockMode, hmgf⟩

theorem uses_iff_named (hauth : Authorized info.params op) (hbuilt : Built info op engine) :
    UsesAuthorized info.params op engine ↔ Named info.params op := by
  cases hbuilt with
  | mac key halgorithm =>
    have haes : info.params.algorithm ≠ Algorithm.AES := by rw [halgorithm]; decide
    have hrsa : info.params.algorithm ≠ Algorithm.RSA := by rw [halgorithm]; decide
    exact uses_iff_of_digest_only hauth (.inl halgorithm)
      (not_isCipher haes fun heq => absurd heq hrsa) hrsa haes (meaning_mac _) rfl rfl rfl
  | ecdsa pair halgorithm hsign =>
    have haes : info.params.algorithm ≠ Algorithm.AES := by rw [halgorithm]; decide
    have hrsa : info.params.algorithm ≠ Algorithm.RSA := by rw [halgorithm]; decide
    refine uses_iff_of_digest_only hauth (.inr ⟨.inl halgorithm, hsign⟩)
      (not_isCipher haes fun heq => absurd heq hrsa) hrsa haes ?_ ?_ rfl rfl
    · rw [OpEngine.usedDigest, meaning_ecdsa]
      rfl
    · rw [OpEngine.usedPadding, meaning_ecdsa]
      rfl
  | pss pair halgorithm hsign _ hpss =>
    refine uses_iff_of_rsa_signature hauth halgorithm hsign (x := KeymasterDefs.KM_PAD_RSA_PSS) (by decide)
      ⟨.inl, ?_⟩ ?_ ?_ rfl rfl
    · rintro (h | h)
      · exact h
      · rw [h, requestedOrFirst_of_ne (by decide)] at hpss
        exact absurd hpss (by decide)
    · rw [OpEngine.usedDigest, meaning_pss]
      rfl
    · rw [OpEngine.usedPadding, meaning_pss]
      rfl
  | rsa pair halgorithm hsign _ hpss =>
    refine uses_iff_of_rsa_signature hauth halgorithm hsign (x := KeymasterDefs.KM_PAD_RSA_PKCS1_1_5_SIGN)
      (by decide) ⟨.inr, ?_⟩ ?_ ?_ rfl rfl
    · rintro (h | h)
      · rw [h] at hpss
        exact absurd rfl hpss
      · exact h
    · rw [OpEngine.usedDigest, meaning_rsa]
      rfl
    · rw [OpEngine.usedPadding, meaning_rsa]
      rfl
  | agreement pair halgorithm hagree =>
    have haes : info.params.algorithm ≠ Algorithm.AES := by rw [halgorithm]; decide
    have hrsa : info.params.algorithm ≠ Algorithm.RSA := by rw [halgorithm]; decide
    have hcipher : ¬ isCipher info.params op := not_isCipher haes fun heq => absurd heq hrsa
    have hsigning : ¬ isSigning info.params op :=
      not_isSigning (by rw [halgorithm]; decide) fun _ => by rw [hagree]; decide
    refine iff_of_true ⟨no_clause rfl, no_clause rfl, no_clause rfl, no_clause rfl⟩
      ⟨?_, fun heq => absurd heq hrsa, fun hc => absurd hc hcipher, fun heq => absurd heq haes,
        fun ho => absurd ho.1 hcipher⟩
    rintro (hs | ho)
    · exact absurd hs hsigning
    · exact absurd ho.1 hcipher
  | rsaCipher key halgorithm hdecrypt =>
    have hsigning : ¬ isSigning info.params op :=
      not_isSigning (by rw [halgorithm]; decide) fun _ => by rw [hdecrypt]; decide
    refine uses_iff_of_cipher hauth (.inr ⟨halgorithm, hdecrypt⟩) hsigning (by decide) rfl
      (iff_of_true (no_clause ?_) fun haes => ?_)
    · rw [OpEngine.usedBlockMode, (component_transformation (by decide) _ _).1]
      rfl
    · rw [halgorithm] at haes
      exact absurd haes (by decide)
  | aesCipher key halgorithm =>
    have hsigning : ¬ isSigning info.params op := by
      apply not_isSigning
      · rw [halgorithm]
        decide
      · rw [halgorithm]
        exact fun h => absurd h (by decide)
    refine uses_iff_of_cipher hauth (.inl halgorithm) hsigning (by decide) rfl ((blockMode_clause hauth).trans ?_)
    exact ⟨fun h _ => h, fun h => h halgorithm⟩

end Authorized

/-- An operation uses the parameters that it was authorized for just when its request names them all. -/
theorem operation_uses_authorized_iff {jca : Jca} {info : Info} {opParams : List KeyParameter} {now : Int}
    {usageKey : Option Key} {origin : Origin} {binder : SoftwareOperationBinder}
    (hauth : authorizeOperation info.params (OpRequest.parse opParams) now = none)
    (hcreate : SoftwareOperationBinder.create jca info (OpRequest.parse opParams) usageKey origin =
      .ok binder) :
    UsesAuthorized info.params (OpRequest.parse opParams) binder.engine ↔
      Named info.params (OpRequest.parse opParams) := by
  have hauthorized := authorized_of_none hauth
  cases hengine : SoftwareOperationBinder.selectEngine info (OpRequest.parse opParams) with
  | error t =>
    rw [SoftwareOperationBinder.create, hengine] at hcreate
    exact nomatch hcreate
  | ok engine =>
    have hbinder : binder.engine = engine := by
      rw [SoftwareOperationBinder.create, hengine] at hcreate
      dsimp only [bind, Except.bind] at hcreate
      cases hinit : jca.init engine with
      | some t =>
        rw [hinit] at hcreate
        exact nomatch hcreate
      | none =>
        rw [hinit] at hcreate
        rw [← Except.ok.inj hcreate]
    rw [hbinder]
    exact uses_iff_named hauthorized (built_of_selectEngine hauthorized hengine)

namespace Demo

/-- A signing key that allows raw data and SHA-256. -/
def signingInfo : Info where
  keyPair := some ⟨[1], [2]⟩
  secretKey := none
  response := { metadata := {} }
  params := { algorithm := Algorithm.EC, purpose := [KeyPurpose.SIGN],
              digest := [0, KeymasterDefs.KM_DIGEST_SHA_2_256] }

def signRequest : List KeyParameter := [⟨Tag.PURPOSE, .keyPurpose KeyPurpose.SIGN⟩]

/-- Providers that set everything up. -/
def providers : Jca := { init := fun _ => none, iv := fun _ => none }

end Demo

open Demo in
theorem operation_uses_authorized_of_sha256 :
    UsesAuthorized signingInfo.params
        (OpRequest.parse (⟨Tag.DIGEST, .digest KeymasterDefs.KM_DIGEST_SHA_2_256⟩ :: signRequest))
        (.signature "SHA256withECDSA" [2] false) ↔
      Named signingInfo.params
        (OpRequest.parse (⟨Tag.DIGEST, .digest KeymasterDefs.KM_DIGEST_SHA_2_256⟩ :: signRequest)) :=
  have hauth : authorizeOperation signingInfo.params
      (OpRequest.parse (⟨Tag.DIGEST, .digest KeymasterDefs.KM_DIGEST_SHA_2_256⟩ :: signRequest)) 0 = none := by
    decide
  have hcreate : SoftwareOperationBinder.create providers signingInfo
      (OpRequest.parse (⟨Tag.DIGEST, .digest KeymasterDefs.KM_DIGEST_SHA_2_256⟩ :: signRequest)) none
        ⟨⟨10001, "a"⟩, 0⟩ =
      .ok { engine := .signature "SHA256withECDSA" [2] false, usageKey := none, usageCountLimit := 0,
            origin := ⟨⟨10001, "a"⟩, 0⟩ } := rfl
  operation_uses_authorized_iff hauth hcreate

open Demo in
/-- A request to sign raw data gets an engine that hashes with SHA-256. -/
theorem raw_signing_hashes : ¬ ∀ (info : Info) (opParams : List KeyParameter) (now : Int)
    (binder : SoftwareOperationBinder), authorizeOperation info.params (OpRequest.parse opParams) now = none →
    SoftwareOperationBinder.create providers info (OpRequest.parse opParams) none ⟨⟨10001, "a"⟩, 0⟩ =
      .ok binder →
    UsesAuthorized info.params (OpRequest.parse opParams) binder.engine := by
  intro h
  have hdigest := (h signingInfo signRequest 0 _ (by decide) rfl).digest
    KeymasterDefs.KM_DIGEST_SHA_2_256 (by decide)
  exact absurd hdigest.1 (by decide)

end TrickyStore
