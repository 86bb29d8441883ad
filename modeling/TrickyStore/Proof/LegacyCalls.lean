import TrickyStore.Model.LegacyCalls
import TrickyStore.Proof.LegacyPairs

/-!
# What a legacy call does

A call works on the entries of one key.  The pre-hook writes the parameters and the pair of a forged key,
the post-hook the algorithm of a leaf that was read, and neither looks at another key.
-/

open Lib

namespace TrickyStore

/-! ## The key of an alias -/

/-- The hooks know an alias by what stands before its first underscore, whatever its prefix. -/
theorem LegacyCall.key_eq (c : LegacyCall) : c.key = ⟨c.callingUid, aliasPart c.name⟩ := by
  have hname : extractAlias c.keyAlias = aliasPart c.name := by
    unfold keyAlias
    cases c.keyPrefix with
    | CA_CERTIFICATE => exact extractAlias_prefixed (p := "CACERT".toList) (by decide) (by decide)
    | USER_CERTIFICATE => exact extractAlias_prefixed (p := "USRCERT".toList) (by decide) (by decide)
    | USER_PRIVATE_KEY => exact extractAlias_prefixed (p := "USRPKEY".toList) (by decide) (by decide)
    | USER_SECRET_KEY => exact extractAlias_prefixed (p := "USRSKEY".toList) (by decide) (by decide)
  rw [key, hname]

namespace KeystoreInterceptor

open CertificateHack

variable {P : Platform} {s t : KeystoreInterceptor} {c : LegacyCall}

/-! ## The requests of a forged key -/

/-- The handler of the request. -/
def handled (P : Platform) (s : KeystoreInterceptor) (c : LegacyCall) : Answer :=
  match c.code with
  | .get => (s, .Skip, [])
  | .generateKey => s.generateKey c.env c.request c.key
  | .getKeyCharacteristics => s.getKeyCharacteristics c.request c.key
  | .exportKey => s.exportKey c.env c.request c.key
  | .attestKey => s.attestKey P c.env c.callingUid c.request c.key

/-- The parameters that the request puts under its key. -/
def written (s : KeystoreInterceptor) (c : LegacyCall) : Option KeyGenParameters :=
  match c.code with
  | .generateKey => c.arguments.bind fun kma => kma.keyGenParameters c.env
  | .attestKey => c.arguments.bind fun kma =>
      (kma.getBytes Tag.ATTESTATION_CHALLENGE []).bind fun challenge =>
        (s.keyArguments.lookup c.key).map fun kgp => { kgp with attestationChallenge := some challenge }
  | _ => none

/-- The pair that the request makes. -/
def made (s : KeystoreInterceptor) (c : LegacyCall) : Option KeyPair :=
  match c.code with
  | .exportKey => (s.keyArguments.lookup c.key).bind (generateKeyPair c.env)
  | _ => none

/-- The pair that the request asks a leaf for. -/
def attested (s : KeystoreInterceptor) (c : LegacyCall) : Option KeyPair :=
  match c.code with
  | .attestKey => (s.written c).bind fun _ => s.keyPairs.lookup c.key
  | _ => none

@[simp] theorem called_state (request : LegacyRequest) (callback : LegacyCallback) :
    (s.called request callback).1 = s := by
  unfold called
  split_ifs <;> rfl

theorem called_answer (request : LegacyRequest) (callback : LegacyCallback) :
    (s.called request callback).2 = (t.called request callback).2 := by
  unfold called
  split_ifs <;> rfl

theorem mem_called {request : LegacyRequest} {callback called' : LegacyCallback}
    (h : called' ∈ (s.called request callback).2.2) : called' = callback := by
  unfold called at h
  split_ifs at h
  · exact List.mem_singleton.1 h
  · exact absurd h (by simp)

theorem handled_state : (handled P s c).1 =
    { s with
      keyArguments := (s.written c).elim s.keyArguments fun kgp => s.keyArguments.insert c.key kgp
      keyPairs := (s.made c).elim s.keyPairs fun kp => s.keyPairs.insert c.key kp } := by
  unfold handled written made
  cases c.code with
  | get => rfl
  | generateKey =>
    simp only [generateKey, LegacyCall.request]
    cases c.arguments with
    | none => simp
    | some kma => cases hkgp : kma.keyGenParameters c.env <;> simp [hkgp]
  | getKeyCharacteristics =>
    simp only [getKeyCharacteristics]
    cases s.keyArguments.lookup c.key <;> simp
  | exportKey =>
    simp only [exportKey]
    cases (s.keyArguments.lookup c.key).bind (generateKeyPair c.env) <;> simp
  | attestKey =>
    simp only [attestKey, LegacyCall.request]
    cases c.arguments with
    | none => rfl
    | some kma =>
      cases hchallenge : kma.getBytes Tag.ATTESTATION_CHALLENGE [] with
      | none => simp [hchallenge]
      | some challenge =>
        cases hkgp : s.keyArguments.lookup c.key with
        | none => simp [hchallenge]
        | some kgp => cases hkp : s.keyPairs.lookup c.key <;> simp [hchallenge]

/-- The answer hangs on the entries of the key and the keyboxes. -/
theorem handled_answer (hargs : s.keyArguments.lookup c.key = t.keyArguments.lookup c.key)
    (hpairs : s.keyPairs.lookup c.key = t.keyPairs.lookup c.key)
    (hkeyboxes : s.shared.keyboxes = t.shared.keyboxes) : (handled P s c).2 = (handled P t c).2 := by
  unfold handled
  cases c.code with
  | get => rfl
  | generateKey =>
    simp only [generateKey]
    cases c.request.arguments with
    | none => exact called_answer ..
    | some kma =>
      cases hkgp : kma.keyGenParameters c.env with
      | none => simp only [hkgp]
      | some kgp =>
        simp only [hkgp]
        exact called_answer ..
  | getKeyCharacteristics =>
    simp only [getKeyCharacteristics, hargs]
    cases t.keyArguments.lookup c.key with
    | none => rfl
    | some kgp => exact called_answer ..
  | exportKey =>
    simp only [exportKey, hargs]
    cases (t.keyArguments.lookup c.key).bind (generateKeyPair c.env) with
    | none => rfl
    | some kp => exact called_answer ..
  | attestKey =>
    simp only [attestKey, hargs, hpairs]
    cases c.request.arguments with
    | none => rfl
    | some kma =>
      cases hchallenge : kma.getBytes Tag.ATTESTATION_CHALLENGE [] with
      | none => simp only [hchallenge]
      | some challenge =>
        simp only [hchallenge]
        cases t.keyArguments.lookup c.key with
        | none => rfl
        | some kgp =>
          cases t.keyPairs.lookup c.key with
          | none => rfl
          | some kp =>
            simp only [generateChain, Daemon.getKeyboxForAlgorithm, hkeyboxes]
            exact called_answer ..

/-! ### What a callback is called with -/

section Callbacks

variable {env : Env} {uid : Int} {request : LegacyRequest} {k : Key} {callback : LegacyCallback}

theorem mem_generateKey (h : callback ∈ (s.generateKey env request k).2.2) :
    ∃ kma, callback = .keyCharacteristics kma := by
  unfold generateKey at h
  cases hargs : request.arguments with
  | none =>
    rw [hargs] at h
    exact ⟨_, mem_called h⟩
  | some kma =>
    simp only [hargs] at h
    cases hkgp : kma.keyGenParameters env with
    | none => simp [hkgp] at h
    | some kgp =>
      simp only [hkgp] at h
      exact ⟨_, mem_called h⟩

theorem mem_getKeyCharacteristics (h : callback ∈ (s.getKeyCharacteristics request k).2.2) :
    ∃ kma, callback = .keyCharacteristics kma := by
  unfold getKeyCharacteristics at h
  cases hkgp : s.keyArguments.lookup k with
  | none => simp [hkgp] at h
  | some kgp =>
    rw [hkgp] at h
    exact ⟨_, mem_called h⟩

theorem mem_exportKey (h : callback ∈ (s.exportKey env request k).2.2) :
    ∃ kp, (s.keyArguments.lookup k).bind (generateKeyPair env) = some kp ∧
      callback = .exportResult kp.publicKey := by
  unfold exportKey at h
  cases hkp : (s.keyArguments.lookup k).bind (generateKeyPair env) with
  | none => simp [hkp] at h
  | some kp =>
    rw [hkp] at h
    exact ⟨kp, rfl, mem_called h⟩

theorem mem_attestKey (h : callback ∈ (s.attestKey P env uid request k).2.2) :
    ∃ kma challenge kgp kp, request.arguments = some kma ∧
      kma.getBytes Tag.ATTESTATION_CHALLENGE [] = some challenge ∧ s.keyArguments.lookup k = some kgp ∧
      s.keyPairs.lookup k = some kp ∧ callback = .certificateChain
        (s.generateChain P env uid { kgp with attestationChallenge := some challenge } kp) := by
  unfold attestKey at h
  cases hargs : request.arguments with
  | none => simp [hargs] at h
  | some kma =>
    simp only [hargs] at h
    cases hchallenge : kma.getBytes Tag.ATTESTATION_CHALLENGE [] with
    | none => simp [hchallenge] at h
    | some challenge =>
      cases hkgp : s.keyArguments.lookup k with
      | none => simp [hchallenge, hkgp] at h
      | some kgp =>
        cases hkp : s.keyPairs.lookup k with
        | none => simp [hchallenge, hkgp, hkp] at h
        | some kp =>
          simp only [hchallenge, hkgp, hkp] at h
          exact ⟨kma, challenge, kgp, kp, rfl, hchallenge, rfl, rfl, mem_called h⟩

end Callbacks

/-- A callback gets the characteristics, the key of the pair that was made, or a chain for the stored
pair. -/
theorem made_or_attested {callback : LegacyCallback} (h : callback ∈ (handled P s c).2.2) :
    (∃ kma, callback = .keyCharacteristics kma) ∨
    (∃ kp, s.made c = some kp ∧ callback = .exportResult kp.publicKey) ∨
    ∃ kgp kp, s.written c = some kgp ∧ s.attested c = some kp ∧
      callback = .certificateChain (s.generateChain P c.env c.callingUid kgp kp) := by
  unfold handled at h
  cases hcode : c.code with
  | get =>
    rw [hcode] at h
    exact absurd h (by simp)
  | generateKey =>
    rw [hcode] at h
    exact .inl (mem_generateKey h)
  | getKeyCharacteristics =>
    rw [hcode] at h
    exact .inl (mem_getKeyCharacteristics h)
  | exportKey =>
    rw [hcode] at h
    obtain ⟨kp, hkp, hcallback⟩ := mem_exportKey h
    exact .inr (.inl ⟨kp, by simp only [made, hcode, hkp], hcallback⟩)
  | attestKey =>
    rw [hcode] at h
    obtain ⟨kma, challenge, kgp, kp, hargs, hchallenge, hkgp, hkp, hcallback⟩ := mem_attestKey h
    have hwritten : s.written c = some { kgp with attestationChallenge := some challenge } := by
      simp only [written, hcode, show c.arguments = some kma from hargs, Option.bind_some, hchallenge, hkgp,
        Option.map_some]
    refine .inr (.inr ⟨_, kp, hwritten, ?_, hcallback⟩)
    simp only [attested, hcode, hwritten, Option.bind_some, hkp]

/-! ## The pre-hook -/

theorem onPreTransact_taken (h : s.taken c = true) (hget : c.code ≠ .get) :
    s.onPreTransact P c.env c.callingUid c.request = handled P (s.checked c.env c.callingUid) c := by
  simp only [taken, Bool.and_eq_true] at h
  obtain ⟨⟨hboxes, hgenerate⟩, henforced⟩ := h
  unfold onPreTransact
  simp only [hboxes, Bool.not_true, Bool.false_eq_true, if_false, LegacyCall.request, hget, hgenerate, if_true,
    generate, henforced]
  rfl

theorem onPreTransact_read (hget : c.code = .get) :
    s.onPreTransact P c.env c.callingUid c.request =
      if s.shared.hasKeyboxes then
        if s.shared.needHack c.env c.callingUid then (s.checked c.env c.callingUid, .Continue, [])
        else ((s.checked c.env c.callingUid).checked c.env c.callingUid, .Skip, [])
      else (s, .Skip, []) := by
  unfold onPreTransact
  simp only [LegacyCall.request, hget, if_true]
  cases s.shared.hasKeyboxes <;> rfl

theorem onPreTransact_not_taken (h : s.taken c = false) (hget : c.code ≠ .get) :
    s.onPreTransact P c.env c.callingUid c.request =
      (if s.shared.hasKeyboxes then s.checked c.env c.callingUid else s, .Skip, []) := by
  unfold onPreTransact
  unfold taken at h
  cases hboxes : s.shared.hasKeyboxes with
  | false => rfl
  | true =>
    simp only [Bool.not_true, Bool.false_eq_true, if_false, if_true, LegacyCall.request, hget]
    cases hgenerate : s.shared.needGenerate c.env c.callingUid with
    | false => rfl
    | true =>
      have henforced : c.enforced = false := by simpa [hboxes, hgenerate] using h
      simp only [if_true, generate, henforced]

theorem callbacks_eq : s.callbacks P c = if s.taken c then (handled P s c).2.2 else [] := by
  unfold callbacks
  by_cases hget : c.code = .get
  · have hhandled : (handled P s c).2.2 = [] := by simp only [handled, hget]
    rw [onPreTransact_read hget, hhandled]
    split_ifs <;> rfl
  · cases h : s.taken c with
    | true =>
      rw [onPreTransact_taken h hget, if_pos rfl]
      exact congrArg Prod.snd (handled_answer rfl rfl rfl)
    | false =>
      rw [onPreTransact_not_taken h hget]
      simp

/-! ## The post-hook -/

theorem onPostTransact_maps {x : X509} {env : Env} {uid : Int} {request : LegacyRequest} {reply : Option Bytes} :
    (s.onPostTransact x env uid request reply).1.keyArguments = s.keyArguments ∧
      (s.onPostTransact x env uid request reply).1.keyPairs = s.keyPairs := by
  unfold onPostTransact
  split_ifs
  · exact ⟨rfl, rfl⟩
  · cases reply.bind replyValue with
    | none => exact ⟨rfl, rfl⟩
    | some response =>
      simp only
      cases s.hackResponse x env uid (request.keyAlias.getD "") response with
      | none => exact ⟨rfl, rfl⟩
      | some r => exact ⟨rfl, rfl⟩

/-- The post-hook of a `get` that goes on to the keystore. -/
def read (s : KeystoreInterceptor) (c : LegacyCall) : KeystoreInterceptor × BinderInterceptor.Result :=
  s.onPostTransact c.x c.env c.callingUid c.request (c.real.2.filter fun b => b ≠ [])

/-- What the client gets when the hooks have decided. -/
def delivered (real : BitVec 32 × Option Bytes) : BinderInterceptor.Result → BitVec 32 × Option Bytes
  | .OverrideReply code reply => (code, some reply)
  | _ => real

theorem transact_continue {cbs : List LegacyCallback}
    (h : s.onPreTransact P c.env c.callingUid c.request = (t, .Continue, cbs)) :
    s.next P c = (t.read c).1 ∧ s.reply P c = delivered c.real (t.read c).2 := by
  unfold next reply transact
  rw [h]
  show _ = (t.read c).1 ∧ _
  cases hread : t.read c with
  | mk t' result =>
    unfold read at hread
    simp only [hread]
    cases result <;> exact ⟨rfl, rfl⟩

theorem transact_stop (h : (s.onPreTransact P c.env c.callingUid c.request).2.1 ≠ .Continue) :
    s.next P c = (s.onPreTransact P c.env c.callingUid c.request).1 ∧
      s.reply P c = delivered c.real (s.onPreTransact P c.env c.callingUid c.request).2.1 := by
  unfold next reply transact
  revert h
  obtain ⟨t, result, cbs⟩ := s.onPreTransact P c.env c.callingUid c.request
  intro h
  cases result with
  | Skip => exact ⟨rfl, rfl⟩
  | Continue => exact (h rfl).elim
  | OverrideReply code reply => exact ⟨rfl, rfl⟩

theorem called_ne_continue (request : LegacyRequest) (callback : LegacyCallback) :
    (s.called request callback).2.1 ≠ .Continue := by
  unfold called createSuccessReply
  split_ifs <;> simp

theorem handled_ne_continue : (handled P s c).2.1 ≠ .Continue := by
  unfold handled
  cases c.code with
  | get => simp
  | generateKey =>
    simp only [generateKey]
    split
    · exact called_ne_continue _ _
    · split
      · simp
      · exact called_ne_continue _ _
  | getKeyCharacteristics =>
    simp only [getKeyCharacteristics]
    split
    · simp
    · exact called_ne_continue _ _
  | exportKey =>
    simp only [exportKey]
    split
    · simp
    · exact called_ne_continue _ _
  | attestKey =>
    simp only [attestKey]
    split
    · simp [createSuccessReply]
    · split
      · split
        · simp
        · exact called_ne_continue _ _
      · simp

theorem onPreTransact_ne_continue (hget : c.code ≠ .get) :
    (s.onPreTransact P c.env c.callingUid c.request).2.1 ≠ .Continue := by
  cases h : s.taken c with
  | true =>
    rw [onPreTransact_taken h hget]
    exact handled_ne_continue
  | false =>
    rw [onPreTransact_not_taken h hget]
    simp

/-- What a call writes to the two maps of forged keys. -/
theorem next_maps (P : Platform) (s : KeystoreInterceptor) (c : LegacyCall) :
    (s.next P c).keyArguments = (if s.taken c then s.written c else none).elim s.keyArguments
        (fun kgp => s.keyArguments.insert c.key kgp) ∧
      (s.next P c).keyPairs = (if s.taken c then s.made c else none).elim s.keyPairs
        (fun kp => s.keyPairs.insert c.key kp) := by
  by_cases hget : c.code = .get
  · have hnone : (if s.taken c then s.written c else none) = none ∧ (if s.taken c then s.made c else none) = none := by
      simp only [written, made, hget, ite_self, and_self]
    rw [hnone.1, hnone.2]
    have hpre := @onPreTransact_read P s c hget
    cases hboxes : s.shared.hasKeyboxes with
    | false =>
      rw [hboxes, if_neg (by simp)] at hpre
      rw [(transact_stop (by simp [hpre])).1, hpre]
      exact ⟨rfl, rfl⟩
    | true =>
      rw [hboxes, if_pos rfl] at hpre
      split_ifs at hpre
      · rw [(transact_continue hpre).1]
        exact onPostTransact_maps
      · rw [(transact_stop (by simp [hpre])).1, hpre]
        exact ⟨rfl, rfl⟩
  · rw [(transact_stop (onPreTransact_ne_continue hget)).1]
    cases h : s.taken c with
    | true =>
      rw [onPreTransact_taken h hget, handled_state]
      exact ⟨rfl, rfl⟩
    | false =>
      rw [onPreTransact_not_taken h hget]
      simp only [Bool.false_eq_true, if_false, Option.elim_none]
      split_ifs <;> exact ⟨rfl, rfl⟩

/-- The entries of other keys stay. -/
theorem next_lookup_ne {k : Key} (hk : k ≠ c.key) :
    (s.next P c).keyArguments.lookup k = s.keyArguments.lookup k ∧
      (s.next P c).keyPairs.lookup k = s.keyPairs.lookup k := by
  obtain ⟨hargs, hpairs⟩ := s.next_maps P c
  rw [hargs, hpairs]
  constructor
  · cases (if s.taken c then s.written c else none) with
    | none => rfl
    | some kgp => exact AList.lookup_insert_ne hk
  · cases (if s.taken c then s.made c else none) with
    | none => rfl
    | some kp => exact AList.lookup_insert_ne hk

end KeystoreInterceptor

end TrickyStore
