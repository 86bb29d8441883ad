import TrickyStore.Model.KeyDirectory

/-!
# Key files are read back

Every step of `saveKeySync` agrees with the step of `loadAll` at the same place, so a file is read
back to its last byte as the record it was written for, and a truncated file is skipped.
-/

open Lib

namespace TrickyStore

open Writer Reader DataOutputStream DataInputStream

/-! ## Modified UTF-8 -/

theorem toNat_ofNat {n : ℕ} (h : n < 256) : (UInt8.ofNat n).toNat = n := by
  rw [UInt8.toNat_ofNat', Nat.mod_eq_of_lt h]

theorem isContinuation_ofNat {n : ℕ} (h : n < 64) : isContinuation (.ofNat (0x80 + n)) = true := by
  rw [isContinuation, toNat_ofNat (by omega)]
  exact decide_eq_true (by omega)

/-- A char is decoded from its bytes, whatever follows. -/
theorem decodeUtf_encodeChar (c : UInt16) (rest : Bytes) :
    decodeUtf (encodeChar c ++ rest) = (decodeUtf rest).map (c :: ·) := by
  have hc : c.toNat < 65536 := c.toNat_lt
  have hof {n : ℕ} (h : n = c.toNat) : UInt16.ofNat n = c := by
    rw [h]
    exact UInt16.ofNat_toNat
  unfold encodeChar
  dsimp only
  split_ifs with h1 h2
  · have hb := toNat_ofNat (n := c.toNat) (by omega)
    rw [List.singleton_append, decodeUtf.eq_def]
    dsimp only
    rw [hb, if_pos (by omega), hof rfl]
  · have hb := toNat_ofNat (n := 0xC0 + c.toNat / 64) (by omega)
    have hb₂ := toNat_ofNat (n := 0x80 + c.toNat % 64) (by omega)
    simp only [List.cons_append, List.nil_append, decodeUtf, hb, hb₂]
    rw [if_neg (by omega), if_pos (by omega), if_pos (isContinuation_ofNat (by omega)),
      hof (by omega)]
  · have hb := toNat_ofNat (n := 0xE0 + c.toNat / 4096) (by omega)
    have hb₂ := toNat_ofNat (n := 0x80 + c.toNat / 64 % 64) (by omega)
    have hb₃ := toNat_ofNat (n := 0x80 + c.toNat % 64) (by omega)
    simp only [List.cons_append, List.nil_append, decodeUtf, hb, hb₂, hb₃]
    rw [if_neg (by omega), if_neg (by omega), if_pos (by omega),
      if_pos ⟨isContinuation_ofNat (by omega), isContinuation_ofNat (by omega)⟩, hof (by omega)]

theorem decodeUtf_encodeUtf (s : JavaString) : decodeUtf (encodeUtf s) = some s := by
  induction s with
  | nil => rfl
  | cons c s ih =>
    rw [encodeUtf, List.flatMap_cons, decodeUtf_encodeChar]
    exact congrArg (Option.map (c :: ·)) ih

/-! ## Big integers -/

theorem ofBigEndian_eq_foldl (b : Bytes) :
    ofBigEndian b = b.foldl (fun (n : ℕ) (x : UInt8) => 256 * n + x.toNat) 0 := by
  rw [ofBigEndian, ofLittleEndian, List.foldr_reverse]
  congr 1
  funext n x
  exact Nat.add_comm ..

/-- The first byte tells the sign. -/
theorem bigInteger_eq {b : Bytes} (h : b ≠ []) :
    bigInteger b = some (ofTwosComplement b.length (ofBigEndian b)) := by
  cases b with
  | nil => exact absurd rfl h
  | cons x b =>
    have hsplit : ofBigEndian (x :: b) = ofBigEndian b + 256 ^ b.length * x.toNat := by
      have happend (l : Bytes) :
          ofLittleEndian (l ++ [x]) = ofLittleEndian l + 256 ^ l.length * x.toNat := by
        induction l with
        | nil => simp [ofLittleEndian]
        | cons y l ih =>
          show y.toNat + 256 * ofLittleEndian (l ++ [x]) = y.toNat + 256 * ofLittleEndian l + _
          rw [ih, List.length_cons, pow_succ]
          ring
      rw [ofBigEndian, List.reverse_cons, happend, List.length_reverse]
      rfl
    have hrest : ofBigEndian b < 256 ^ b.length := by
      have hlt := ofLittleEndian_lt b.reverse
      rwa [List.length_reverse] at hlt
    have hsign : x < 128 ↔ 2 * ofBigEndian (x :: b) < 256 ^ (x :: b).length := by
      rw [hsplit, List.length_cons, pow_succ, UInt8.lt_iff_toNat_lt]
      have h128 : (128 : UInt8).toNat = 128 := rfl
      rw [h128]
      constructor
      · intro hx
        have hle : 256 ^ b.length * x.toNat ≤ 256 ^ b.length * 127 := Nat.mul_le_mul_left _ (by omega)
        omega
      · intro hlt
        by_contra hx
        have hle : 256 ^ b.length * 128 ≤ 256 ^ b.length * x.toNat := Nat.mul_le_mul_left _ (by omega)
        omega
    rw [bigInteger, ← ofBigEndian_eq_foldl, ofTwosComplement]
    by_cases hx : x < 128
    · rw [if_pos hx, if_pos (hsign.1 hx)]
    · rw [if_neg hx, if_neg fun hlt => hx (hsign.2 hlt)]
      rfl

theorem fitsBytes_bitLength (n : Int) : FitsBytes (bitLength n / 8 + 1) n := by
  have hbits : bitLength n < 8 * (bitLength n / 8 + 1) := by omega
  generalize hk : bitLength n / 8 + 1 = k at hbits ⊢
  have hlt : (if n < 0 then -n - 1 else n).toNat < 2 ^ (8 * k - 1) :=
    (Nat.lt_size_self _).trans_le (Nat.pow_le_pow_right (by omega) (by unfold bitLength at hbits; omega))
  have hpow : (256 : Int) ^ k = 2 * ((2 ^ (8 * k - 1) : ℕ) : Int) := by
    have h8 : 8 * k = 8 * k - 1 + 1 := by omega
    push_cast
    rw [show (256 : Int) = 2 ^ 8 from rfl, ← pow_mul, ← pow_succ', ← h8]
  unfold FitsBytes
  rw [hpow]
  generalize 2 ^ (8 * k - 1) = p at hlt
  split_ifs at hlt <;> omega

theorem bigInteger_toByteArray (n : Int) : bigInteger (toByteArray n) = some n := by
  have hne : toByteArray n ≠ [] := by
    intro h
    have hlength := congrArg List.length h
    simp [toByteArray] at hlength
  rw [bigInteger_eq hne, toByteArray, length_bigEndian, ofBigEndian_bigEndian (twosComplement_lt _ _),
    ofTwosComplement_twosComplement (fitsBytes_bitLength n)]

/-! ## The steps of the two streams -/

section Steps

variable {n : Int} {b : Bytes}

/-- An integer in a fixed number of bytes. -/
theorem agree_signed {k : ℕ} (h : FitsBytes k n) :
    Agree (emit (bigEndian k (twosComplement k n)))
      ((fun b => ofTwosComplement k (ofBigEndian b)) <$> take k) n := by
  have hread : ofTwosComplement k (ofBigEndian (bigEndian k (twosComplement k n))) = n := by
    rw [ofBigEndian_bigEndian (twosComplement_lt _ _), ofTwosComplement_twosComplement h]
  have hmap := (reads_take (length_bigEndian k (twosComplement k n))).map
    (g := fun b => ofTwosComplement k (ofBigEndian b))
  rw [hread] at hmap
  exact agree_emit hmap

theorem agree_byte (h : FitsBytes 1 n) : Agree (writeByte n) readByte n := agree_signed h

theorem agree_int (h : FitsBytes 4 n) : Agree (writeInt n) readInt n := agree_signed h

theorem agree_long (h : FitsBytes 8 n) : Agree (writeLong n) readLong n := agree_signed h

theorem agree_boolean (b : Bool) : Agree (writeBoolean b) readBoolean b := by
  have hword : Reads (take 1) [if b then (1 : UInt8) else 0] _ := reads_take rfl
  have hmap := hword.map (g := fun b => b != [0])
  have hread : ([if b then (1 : UInt8) else 0] != [0]) = b := by cases b <;> rfl
  rw [hread] at hmap
  exact agree_emit hmap

theorem agree_utf {s : JavaString} (h : (encodeUtf s).length ≤ 65535) :
    Agree (writeUTF s) readUTF s := by
  refine Agree.ensure h (agree_emit ?_)
  have hsize : ofBigEndian (bigEndian 2 (encodeUtf s).length) = (encodeUtf s).length :=
    ofBigEndian_bigEndian (by omega)
  refine (reads_take (length_bigEndian _ _)).bind ?_
  rw [hsize]
  exact (reads_take rfl).then (reads_lift (decodeUtf_encodeUtf s))

theorem agree_byteArray (h : FitsBytes 4 b.length) : Agree (writeByteArray b) readByteArray b := by
  refine (agree_int h).bind ?_
  rw [if_neg (by omega), Int.toNat_natCast]
  exact agree_emit (reads_take rfl)

theorem agree_optional {α : Type} {write : α → DataOutputStream Unit} {read : DataInputStream α}
    {o : Option α} (h : ∀ a, o = some a → Agree (write a) read a) :
    Agree (writeOptional write o) (readOptional read) o := by
  refine (agree_boolean o.isSome).bind ?_
  cases o with
  | none => exact agree_pure none
  | some a => exact (h a rfl).map

theorem agree_list {α : Type} {write : α → DataOutputStream Unit} {read : DataInputStream α}
    {as : List α} (hsize : FitsBytes 4 as.length) (h : ∀ a ∈ as, Agree (write a) read a) :
    Agree (writeList write as) (readList read) as := by
  refine (agree_int hsize).bind ?_
  rw [Int.toNat_natCast]
  exact agree_each h

theorem agree_intList {list : List Int} (hsize : FitsBytes 4 list.length)
    (h : ∀ n ∈ list, FitsBytes 4 n) : Agree (writeIntList list) readIntList list :=
  agree_list hsize fun n hn => agree_int (h n hn)

end Steps

/-! ## Records -/

/-- A list that an array of Java can hold, of Java's ints. -/
def IntList (list : List Int) : Prop := FitsBytes 4 list.length ∧ ∀ n ∈ list, FitsBytes 4 n

/-- The stored parameters are values of their Java types. -/
structure KeyGenParameters.Holdable (params : KeyGenParameters) : Prop where
  algorithm : FitsBytes 4 params.algorithm
  keySize : FitsBytes 4 params.keySize
  ecCurve : FitsBytes 4 params.ecCurve
  purpose : IntList params.purpose
  digest : IntList params.digest
  padding : IntList params.padding
  blockMode : IntList params.blockMode
  mgfDigest : IntList params.mgfDigest
  usageCountLimit : FitsBytes 4 params.usageCountLimit
  activeDateTime : ∀ t, params.activeDateTime = some t → FitsBytes 8 t
  originationExpireDateTime : ∀ t, params.originationExpireDateTime = some t → FitsBytes 8 t
  usageExpireDateTime : ∀ t, params.usageExpireDateTime = some t → FitsBytes 8 t
  origin : ∀ n, params.origin = some n → FitsBytes 4 n
  rsaPublicExponent : ∀ n, params.rsaPublicExponent = some n → FitsBytes 4 (toByteArray n).length

/-- The fields are values of their Java types, and the two names fit into a `writeUTF`. -/
structure KeyFile.Holdable (key : KeyFile) : Prop where
  uid : FitsBytes 4 key.uid
  keyAlias : (encodeUtf key.keyAlias).length ≤ 65535
  securityLevel : FitsBytes 4 key.securityLevel
  nspace : FitsBytes 8 key.nspace
  domain : FitsBytes 4 key.domain
  keyPair : ∀ pair, key.keyPair = some pair →
    FitsBytes 4 pair.privateKey.length ∧ FitsBytes 4 pair.publicKey.length
  secretKey : ∀ k, key.secretKey = some k →
    (encodeUtf k.algorithm).length ≤ 65535 ∧ FitsBytes 4 k.encoded.length
  chain : FitsBytes 4 key.chain.length ∧ ∀ c ∈ key.chain, FitsBytes 4 c.encoded.length
  metadataBytes : ∀ b, key.metadataBytes = some b → FitsBytes 4 b.length
  params : key.params.Holdable

/-- The factories turn the encodings of the record's keys and certificates back into these. -/
structure KeyFactories.Inverts (F : KeyFactories) (key : KeyFile) : Prop where
  keyPair : ∀ pair, key.keyPair = some pair →
    F.generatePublic (keyAlgo key.params.algorithm) pair.publicKey = some pair.publicKey ∧
      F.generatePrivate (keyAlgo key.params.algorithm) pair.privateKey = some pair.privateKey
  secretKey : ∀ k, key.secretKey = some k → F.secretKeySpec k.encoded k.algorithm = some k
  chain : ∀ c ∈ key.chain, F.generateCertificate c.encoded = some c

section Records

variable {F : KeyFactories} {key : KeyFile}

theorem agree_keyPair {pair : KeyPair} (hpriv : FitsBytes 4 pair.privateKey.length)
    (hpub : FitsBytes 4 pair.publicKey.length) :
    Agree (writeKeyPair pair) readKeyPair (pair.privateKey, pair.publicKey) :=
  (agree_byteArray hpriv).bind ((agree_byteArray hpub).then (reads_pure _))

theorem agree_secretKey {k : SecretKeySpec} (halgo : (encodeUtf k.algorithm).length ≤ 65535)
    (hsize : FitsBytes 4 k.encoded.length) (hF : F.secretKeySpec k.encoded k.algorithm = some k) :
    Agree (writeSecretKey k) (readSecretKey F) k :=
  (agree_utf halgo).bind ((agree_byteArray hsize).then (reads_lift hF))

theorem agree_certificate {c : Certificate} (hsize : FitsBytes 4 c.encoded.length)
    (hF : F.generateCertificate c.encoded = some c) : Agree (writeCertificate c) (readCertificate F) c :=
  (agree_byteArray hsize).then (reads_lift hF)

theorem agree_bigInteger {n : Int} (hsize : FitsBytes 4 (toByteArray n).length) :
    Agree (writeByteArray (toByteArray n)) readBigInteger n :=
  (agree_byteArray hsize).then (reads_lift (bigInteger_toByteArray n))

/-- The halves of the key pair, read long before the factories are asked for the keys. -/
theorem agree_halves (h : ∀ pair, key.keyPair = some pair →
      FitsBytes 4 pair.privateKey.length ∧ FitsBytes 4 pair.publicKey.length) :
    Agree (writeOptional writeKeyPair key.keyPair) (readOptional readKeyPair)
      (key.keyPair.map fun pair => (pair.privateKey, pair.publicKey)) := by
  refine (agree_boolean key.keyPair.isSome).bind ?_
  cases hpair : key.keyPair with
  | none => exact agree_pure none
  | some pair => exact (agree_keyPair (h pair hpair).1 (h pair hpair).2).map

theorem KeyFactories.Inverts.keyPair_eq (hF : F.Inverts key) :
    ((key.keyPair.map fun pair => (pair.privateKey, pair.publicKey)).elim (some none) fun h =>
      (F.keyPair key.params.algorithm h).map some) = some key.keyPair := by
  cases hpair : key.keyPair with
  | none => rfl
  | some pair =>
    obtain ⟨hpub, hpriv⟩ := hF.keyPair pair hpair
    simp only [Option.map_some, Option.elim_some, KeyFactories.keyPair, hpub, hpriv]
    rfl

/-- The two sequences agree field by field. -/
theorem agree_saveKeySync (h : key.Holdable) (hF : F.Inverts key) :
    Agree (saveKeySync key) (loadFile F) { key with params := key.params.persisted } := by
  have hparams := h.params
  refine (agree_byte (by decide)).bind ?_
  rw [if_neg (not_not.2 rfl)]
  refine (agree_int h.uid).bind ?_
  refine (agree_utf h.keyAlias).bind ?_
  refine (agree_int h.securityLevel).bind ?_
  refine (agree_boolean _).bind ?_
  refine (agree_long h.nspace).bind ?_
  refine (agree_int h.domain).bind ?_
  refine (agree_halves h.keyPair).bind ?_
  refine (agree_optional fun k hk =>
    agree_secretKey (h.secretKey k hk).1 (h.secretKey k hk).2 (hF.secretKey k hk)).bind ?_
  refine (agree_list h.chain.1 fun c hc => agree_certificate (h.chain.2 c hc) (hF.chain c hc)).bind ?_
  refine (agree_optional fun b hb => agree_byteArray (h.metadataBytes b hb)).bind ?_
  refine (agree_int hparams.algorithm).bind ?_
  refine (agree_int hparams.keySize).bind ?_
  refine (agree_int hparams.ecCurve).bind ?_
  refine (agree_intList hparams.purpose.1 hparams.purpose.2).bind ?_
  refine (agree_intList hparams.digest.1 hparams.digest.2).bind ?_
  refine (agree_intList hparams.padding.1 hparams.padding.2).bind ?_
  refine (agree_intList hparams.blockMode.1 hparams.blockMode.2).bind ?_
  refine (agree_intList hparams.mgfDigest.1 hparams.mgfDigest.2).bind ?_
  refine (agree_int hparams.usageCountLimit).bind ?_
  refine (agree_optional fun b _ => agree_boolean b).bind ?_
  refine (agree_optional fun b _ => agree_boolean b).bind ?_
  refine (agree_optional fun t ht => agree_long (hparams.activeDateTime t ht)).bind ?_
  refine (agree_optional fun t ht => agree_long (hparams.originationExpireDateTime t ht)).bind ?_
  refine (agree_optional fun t ht => agree_long (hparams.usageExpireDateTime t ht)).bind ?_
  refine (agree_optional fun b _ => agree_boolean b).bind ?_
  refine (agree_optional fun n hn => agree_int (hparams.origin n hn)).bind ?_
  refine (agree_optional fun n hn => agree_bigInteger (hparams.rsaPublicExponent n hn)).then ?_
  exact reads_lift_bind hF.keyPair_eq (reads_pure _)

end Records

/-- A key file is read back to its last byte as the record that it was written for, with the parameters
that the format keeps; of a truncated one nothing is read. -/
theorem keyFile_roundTrip (F : KeyFactories) (key : KeyFile) (h : key.Holdable) (hF : F.Inverts key) :
    ∃ bytes, saveKeySync key [] = some ((), bytes) ∧
      loadFile F bytes = some ({ key with params := key.params.persisted }, []) ∧
      ∀ input, input <+: bytes → input ≠ bytes → loadFile F input = none :=
  (agree_saveKeySync h hF).spec

namespace Demo

/-- Factories that take every encoding for what it says, and refuse an empty secret key. -/
def keyFactories : KeyFactories where
  generatePublic := fun _ b => some b
  generatePrivate := fun _ b => some b
  secretKeySpec := fun b algorithm => if b.isEmpty then none else some ⟨algorithm, b⟩
  generateCertificate := fun b => some ⟨b⟩

/-- A record with every optional field, a chain of two and an empty list. -/
def rsaKeyFile : KeyFile :=
  { uid := 10001, keyAlias := [97], securityLevel := 1, skipLeafHack := true, nspace := -5, domain := 0
    keyPair := some ⟨[1], [2]⟩, secretKey := some ⟨[65], [9]⟩, chain := [⟨[3]⟩, ⟨[]⟩]
    params := { algorithm := Algorithm.RSA, keySize := 2048, purpose := [KeyPurpose.SIGN]
                callerNonce := some false, activeDateTime := some 1, origin := some 0
                rsaPublicExponent := some 65537 }
    metadataBytes := some [] }

end Demo

open Demo in
theorem keyFile_roundTrip_rsa :
    ∃ bytes, saveKeySync rsaKeyFile [] = some ((), bytes) ∧
      loadFile keyFactories bytes =
        some ({ rsaKeyFile with params := rsaKeyFile.params.persisted }, []) ∧
      ∀ input, input <+: bytes → input ≠ bytes → loadFile keyFactories input = none := by
  refine keyFile_roundTrip keyFactories rsaKeyFile ?_ ?_
  · refine ⟨by decide, by decide, by decide, by decide, by decide, ?_, ?_, ⟨by decide, by decide⟩, ?_, ?_⟩
    · rintro pair ⟨⟩
      decide
    · rintro k ⟨⟩
      decide
    · rintro b ⟨⟩
      decide
    · refine ⟨by decide, by decide, by decide, ⟨by decide, by decide⟩, ⟨by decide, by decide⟩,
        ⟨by decide, by decide⟩, ⟨by decide, by decide⟩, ⟨by decide, by decide⟩, by decide, ?_, ?_, ?_, ?_, ?_⟩
      · rintro t ⟨⟩
        decide
      · rintro t ⟨⟩
      · rintro t ⟨⟩
      · rintro n ⟨⟩
        decide
      · rintro n ⟨⟩
        decide
  · refine ⟨?_, ?_, ?_⟩
    · rintro pair ⟨⟩
      exact ⟨rfl, rfl⟩
    · rintro k ⟨⟩
      rfl
    · intro c _
      rfl

/-! ## The files of the executor -/

/-- `writeUTF` counts the bytes that the executor's length check counts. -/
theorem length_encodeUtf_javaString (s : String) :
    (encodeUtf (javaString s)).length = modifiedUtf8Length s := by
  have hchar (c : Char) : ((if c.toNat < 0x10000 then [c.toNat]
      else [0xD800 + (c.toNat - 0x10000) / 0x400, 0xDC00 + (c.toNat - 0x10000) % 0x400]).flatMap
        fun n => encodeChar (.ofNat n)).length = modifiedUtf8Size c := by
    have hbound : c.toNat < 0x110000 := by
      have hvalid : c.toNat.isValidChar := c.valid
      unfold Nat.isValidChar at hvalid
      omega
    have hsize {n : ℕ} (hn : n < 65536) : (encodeChar (.ofNat n)).length =
        if 1 ≤ n ∧ n ≤ 0x7F then 1 else if n ≤ 0x7FF then 2 else 3 := by
      rw [encodeChar, UInt16.toNat_ofNat', Nat.mod_eq_of_lt hn]
      split_ifs <;> rfl
    have hval : modifiedUtf8Size c = if c.toNat = 0 then 2 else if c.toNat ≤ 0x7F then 1
        else if c.toNat ≤ 0x7FF then 2 else if c.toNat ≤ 0xFFFF then 3 else 6 := by
      unfold modifiedUtf8Size
      simp only [UInt32.le_iff_toNat_le, ← UInt32.toNat_inj]
      rfl
    rw [hval]
    by_cases hbmp : c.toNat < 0x10000
    · rw [if_pos hbmp, List.flatMap_singleton, hsize hbmp]
      split_ifs <;> omega
    · rw [if_neg hbmp, List.flatMap_cons, List.flatMap_singleton, List.length_append,
        hsize (by omega), hsize (by omega)]
      split_ifs <;> omega
  rw [encodeUtf, javaString, utf16Units, modifiedUtf8Length, List.flatMap_map]
  induction s.toList with
  | nil => rfl
  | cons c l ih =>
    rw [List.flatMap_cons, List.flatMap_append, List.length_append, hchar, ih, List.map_cons,
      List.sum_cons]

section Executor

open PersistenceManager

variable {F : KeyFactories} {marshall : KeyMetadata → Bytes} {pk : PersistedKey}

/-- A save leaves a file from which `loadAll` reads the record that the executor's task stands for. -/
theorem saved_is_read_back (h : (pk.keyFile marshall).Holdable) (hF : F.Inverts (pk.keyFile marshall))
    (files : HashMap Key PersistedKey) :
    ∃ bytes stored, saveKeySync (pk.keyFile marshall) [] = some ((), bytes) ∧
      (runTask files (.saveKey pk)).lookup pk.key = some stored ∧
      loadFile F bytes = some (stored.keyFile marshall, []) := by
  obtain ⟨bytes, hwrite, hread, -⟩ := (agree_saveKeySync h hF).spec
  have hfits : modifiedUtf8Length pk.keyAlias ≤ 65535 := by
    rw [← length_encodeUtf_javaString]
    exact h.keyAlias
  refine ⟨bytes, { pk with params := pk.params.persisted }, hwrite, ?_, hread⟩
  rw [runTask, if_pos hfits, AList.lookup_insert]

/-- A save that throws leaves the files as they are. -/
theorem failed_save_keeps_files (h : 65535 < modifiedUtf8Length pk.keyAlias)
    (files : HashMap Key PersistedKey) :
    saveKeySync (pk.keyFile marshall) [] = none ∧ runTask files (.saveKey pk) = files := by
  refine ⟨?_, if_neg h.not_ge⟩
  have hlong : ¬ (encodeUtf (pk.keyFile marshall).keyAlias).length ≤ 65535 := by
    show ¬ (encodeUtf (javaString pk.keyAlias)).length ≤ 65535
    rw [length_encodeUtf_javaString]
    exact h.not_ge
  have hutf (written : Bytes) : writeUTF (pk.keyFile marshall).keyAlias written = none :=
    fails_left (fun written => if_neg hlong) written
  unfold saveKeySync
  exact fails_right (fails_right (fails_left hutf)) []

end Executor

end TrickyStore
