import TrickyStore.Proof.HookFrame

/-!
# The hooks of `generateKey`, route by route

What the pre-hook leaves behind and answers, for each route it can select, and what the post-hook
does with a reply, by the mark that a passthrough route sets.
-/

open Lib

namespace TrickyStore

/-- A route whose request is forwarded and whose reply the post-hook may re-sign. -/
def Route.isForward : Route → Bool
  | .generate | .passthroughRealTee => false
  | _ => true

namespace Daemon

variable {P : Platform} {env : Env} {uid : Int} {level : SecurityLevel} {d : Daemon}
  {kd ak : Option KeyDescriptor} {params : Option (List KeyParameter)} {r : Route}

/-- A request that passed the checks has an alias. -/
theorem checkGenerateKey_ok {d₁ : Daemon} {req : KeygenRequest}
    (h : d.checkGenerateKey P env uid kd ak params = (d₁, .ok req)) :
    kd.bind KeyDescriptor.keyAlias = some req.keyAlias := by
  unfold checkGenerateKey at h
  split at h
  · next desc _ =>
    dsimp only at h
    split at h
    · cases h
    · split at h
      · cases h
      · next a ha =>
        suffices req.keyAlias = a by rw [this]; exact ha
        repeat' split at h
        all_goals cases h <;> rfl
  · cases h

/-! ## The outcomes of the pre-hook -/

/-- The state once the packages of the uid have been looked up, any number of times. -/
inductive LooksUp (env : Env) (uid : Int) (d : Daemon) : Daemon → Prop
  | refl : LooksUp env uid d d
  | resolved {d₁ : Daemon} (h : LooksUp env uid d d₁) : LooksUp env uid d (d₁.resolved env uid)
  | checked {d₁ : Daemon} (h : LooksUp env uid d d₁) : LooksUp env uid d (d₁.checked env uid)

/-- A lookup changes the configuration at most. -/
theorem LooksUp.eq {d₁ : Daemon} (h : LooksUp env uid d d₁) : ∃ config, d₁ = { d with config } := by
  induction h with
  | refl => exact ⟨_, rfl⟩
  | resolved _ ih | checked _ ih =>
    obtain ⟨config, rfl⟩ := ih
    exact ⟨_, rfl⟩

/-- The state in which a route forwards the request. -/
def forwarded (level : SecurityLevel) (k : Key) (r : Route) (d : Daemon) : Daemon :=
  match r with
  | .generate | .forwardSymmetric | .forwardPlainAsymmetric => d
  | .passthroughRealTee =>
    { d with pendingPassthroughKeys :=
        d.pendingPassthroughKeys.insert (level, k) true }.clearSyntheticCertificateState k false
  | .leafForwardAttestation | .leafForward | .skip =>
    { d with cache := { d.cache with skipLeafHacks := d.cache.skipLeafHacks.erase k } }

/-- What a `generateKey` comes to before the real keystore is asked: an answer with nothing changed, a forged
key, or a request that is forwarded on a route. -/
inductive KeygenOutcome (P : Platform) (env : Env) (uid : Int) (level : SecurityLevel) (d : Daemon)
    (kd ak : Option KeyDescriptor) (params : Option (List KeyParameter)) : Daemon × Result → Prop
  | answered {d₁ : Daemon} {res : Result} (hlook : LooksUp env uid d d₁) (hres : res ≠ .Continue)
      (hroute : ∀ r, d.generateKeyRoute P env uid kd ak params = some r → r = .generate)
      (hreply : ∀ m, res ≠ .typedReply m) :
    KeygenOutcome P env uid level d kd ak params (d₁, res)
  | forged {d₁ : Daemon} {req : KeygenRequest} {pair : KeyPair} {chain : List Certificate} (skip : Bool)
      (hlook : LooksUp env uid d d₁) (hcheck : d.checkGenerateKey P env uid kd ak params = (d₁, .ok req))
      (hselected : d₁.selectedRoute env uid req = some .generate)
      (hpair : (d₁.checked env uid).generateKeyPair P env uid req.attestationKeyDescriptor req.kgp
        level.toInt = some (pair, chain)) :
    KeygenOutcome P env uid level d kd ak params ((d₁.checked env uid).storeGeneratedKey P env level uid
      req.keyAlias req.descriptor.domain req.kgp pair chain skip)
  | forwarded {d₁ : Daemon} {a : String} {r : Route} (hlook : LooksUp env uid d d₁)
      (ha : kd.bind KeyDescriptor.keyAlias = some a)
      (hroute : d.generateKeyRoute P env uid kd ak params = some r) (hr : r ≠ .generate) :
    KeygenOutcome P env uid level d kd ak params (d₁.forwarded level ⟨uid, a⟩ r, .Continue)

/-- The route is selected once the request has passed the checks. -/
theorem generateKeyRoute_eq_some (h : d.generateKeyRoute P env uid kd ak params = some r) :
    ∃ d₁ req, (d₁ = d ∨ d₁ = d.resolved env uid) ∧ d₁.selectedRoute env uid req = some r := by
  have hfst := checkGenerateKey_fst P env uid d kd ak params
  unfold generateKeyRoute at h
  split at h
  · cases h
  · next d₁ req hcheck =>
    rw [hcheck] at hfst
    exact ⟨d₁, req, hfst, h⟩

theorem generateKeyRoute_of_check {d₁ : Daemon} {req : KeygenRequest}
    (h : d.checkGenerateKey P env uid kd ak params = (d₁, .ok req)) :
    d.generateKeyRoute P env uid kd ak params = d₁.selectedRoute env uid req := by
  rw [generateKeyRoute, h]

/-- The checks neither forward the request nor answer it with a key. -/
theorem checkGenerateKey_error {d₁ : Daemon} {res : Result}
    (h : d.checkGenerateKey P env uid kd ak params = (d₁, .error res)) :
    res ≠ .Continue ∧ ∀ m, res ≠ .typedReply m := by
  constructor
  · rintro rfl
    unfold checkGenerateKey at h
    dsimp only at h
    repeat' split at h
    all_goals cases h
  · rintro m rfl
    unfold checkGenerateKey at h
    dsimp only at h
    repeat' split at h
    all_goals cases h

theorem preGenerateKey_outcome (P : Platform) (env : Env) (uid : Int) (level : SecurityLevel) (d : Daemon)
    (kd ak : Option KeyDescriptor) (params : Option (List KeyParameter)) :
    KeygenOutcome P env uid level d kd ak params (d.preGenerateKey P env level uid kd ak params) := by
  have hfst := checkGenerateKey_fst P env uid d kd ak params
  unfold preGenerateKey
  cases hcheck : d.checkGenerateKey P env uid kd ak params with
  | mk d₁ res =>
    have hlook : LooksUp env uid d d₁ := by
      rw [hcheck] at hfst
      rcases hfst with rfl | rfl
      · exact .refl
      · exact .resolved .refl
    cases res with
    | error res =>
      refine .answered hlook (checkGenerateKey_error hcheck).1 (fun r hr => ?_) (checkGenerateKey_error hcheck).2
      simp only [generateKeyRoute, hcheck] at hr
      cases hr
    | ok req =>
      have hroute := generateKeyRoute_of_check hcheck
      dsimp only
      unfold routeGenerateKey
      cases hselected : d₁.selectedRoute env uid req with
      | none =>
        refine .answered hlook.checked (by simp) (fun r hr => ?_) (by simp [Result.typedReply])
        cases (hroute.trans hselected).symm.trans hr
      | some r =>
        have hr := hroute.trans hselected
        cases r with
        | generate =>
          dsimp only
          split
          · refine .answered hlook.checked (by simp) (fun r hr' => ?_) (by simp [Result.typedReply])
            exact Option.some.inj (hr'.symm.trans hr)
          · next pair chain hpair => exact .forged _ hlook hcheck hselected hpair
        | _ => exact .forwarded hlook.checked (checkGenerateKey_ok hcheck) hr (by simp)

variable (level) in
theorem preGenerateKey_of_passthrough
    (h : d.generateKeyRoute P env uid kd ak params = some .passthroughRealTee) :
    ∃ a, kd.bind KeyDescriptor.keyAlias = some a ∧
      (d.preGenerateKey P env level uid kd ak params).2 = .Continue ∧
      (d.preGenerateKey P env level uid kd ak params).1.cache = d.cache.clear ⟨uid, a⟩ ∧
      (d.preGenerateKey P env level uid kd ak params).1.persistence = d.persistence ∧
      (d.preGenerateKey P env level uid kd ak params).1.pendingPassthroughKeys =
        d.pendingPassthroughKeys.insert (level, ⟨uid, a⟩) true := by
  have houtcome := preGenerateKey_outcome P env uid level d kd ak params
  generalize d.preGenerateKey P env level uid kd ak params = outcome at houtcome ⊢
  cases houtcome with
  | answered _ _ hroute => cases hroute _ h
  | forged _ _ hcheck hselected => cases (generateKeyRoute_of_check hcheck ▸ h).symm.trans hselected
  | forwarded hlook ha hroute =>
    obtain ⟨config, rfl⟩ := hlook.eq
    cases hroute.symm.trans h
    exact ⟨_, ha, rfl, rfl, rfl, rfl⟩

variable (level) in
theorem preGenerateKey_of_forward (h : d.generateKeyRoute P env uid kd ak params = some r)
    (hr : r.isForward = true) :
    ∃ a, kd.bind KeyDescriptor.keyAlias = some a ∧
      (d.preGenerateKey P env level uid kd ak params).2 = .Continue ∧
      (d.preGenerateKey P env level uid kd ak params).1.cache.keys = d.cache.keys ∧
      (d.preGenerateKey P env level uid kd ak params).1.persistence = d.persistence ∧
      (d.preGenerateKey P env level uid kd ak params).1.pendingPassthroughKeys =
        d.pendingPassthroughKeys := by
  have houtcome := preGenerateKey_outcome P env uid level d kd ak params
  generalize d.preGenerateKey P env level uid kd ak params = outcome at houtcome ⊢
  cases houtcome with
  | answered _ _ hroute =>
    rw [hroute _ h] at hr
    cases hr
  | forged _ _ hcheck hselected =>
    cases (generateKeyRoute_of_check hcheck ▸ h).symm.trans hselected
    cases hr
  | forwarded hlook ha hroute =>
    obtain ⟨config, rfl⟩ := hlook.eq
    cases hroute.symm.trans h
    refine ⟨_, ha, rfl, ?_⟩
    cases r with
    | generate | passthroughRealTee => cases hr
    | _ => exact ⟨rfl, rfl, rfl⟩

variable (level) in
/-- The other requests are refused, answered with a forged key or left alone. -/
theorem preGenerateKey_of_not_forwarded
    (h : ∀ r, d.generateKeyRoute P env uid kd ak params = some r → r = .generate) :
    (d.preGenerateKey P env level uid kd ak params).2 ≠ .Continue ∧
      (d.preGenerateKey P env level uid kd ak params).1.pendingPassthroughKeys =
        d.pendingPassthroughKeys := by
  have houtcome := preGenerateKey_outcome P env uid level d kd ak params
  generalize d.preGenerateKey P env level uid kd ak params = outcome at houtcome ⊢
  cases houtcome with
  | answered hlook hres =>
    obtain ⟨config, rfl⟩ := hlook.eq
    exact ⟨hres, rfl⟩
  | forged skip hlook =>
    obtain ⟨config, rfl⟩ := hlook.eq
    exact ⟨by simp [storeGeneratedKey, Result.typedReply], rfl⟩
  | forwarded _ _ hroute hr => exact absurd (h _ hroute) hr

/-- The pre-hook forwards a request for its post-hook exactly on the forwarding routes. -/
theorem preGenerateKey_eq_continue_iff :
    (d.preGenerateKey P env level uid kd ak params).2 = .Continue ↔
      ∃ r, d.generateKeyRoute P env uid kd ak params = some r ∧ r ≠ .generate := by
  have houtcome := preGenerateKey_outcome P env uid level d kd ak params
  generalize d.preGenerateKey P env level uid kd ak params = outcome at houtcome ⊢
  cases houtcome with
  | answered _ hres hroute => exact iff_of_false hres fun ⟨r, hr, hne⟩ => hne (hroute r hr)
  | forged _ _ hcheck hselected =>
    refine iff_of_false (by simp [storeGeneratedKey, Result.typedReply]) ?_
    rintro ⟨r, hr, hne⟩
    exact hne (Option.some.inj ((generateKeyRoute_of_check hcheck ▸ hr).symm.trans hselected))
  | forwarded _ _ hroute hr => exact iff_of_true rfl ⟨_, hroute, hr⟩

end Daemon

/-! ## The reply -/

/-- The metadata of a successful reply; `none` when the reply is an error or cannot be read. -/
def Parcel.keyMetadata (p : Parcel) : Option (Option KeyMetadata) :=
  (p.readException.bind fun body => body.readTypedObject keyMetadataCreator).map Prod.fst

/-- The leaf certificate in a successful reply. -/
def Parcel.leafCertificate (P : Platform) (p : Parcel) : Option Certificate :=
  p.keyMetadata.join.bind fun m => m.certificate.bind P.toCertificate

namespace Daemon

variable {P : Platform} {env : Env} {uid : Int} {level : SecurityLevel} {d : Daemon}
  {kd : Option KeyDescriptor} {p : Parcel} {a : String}

/-- The decision of the post-hook: it finds the mark of a passthrough route. -/
def treatsAsPassthrough (level : SecurityLevel) (k : Key) (d : Daemon) : Bool :=
  d.pendingPassthroughKeys.lookup (level, k) = some true

theorem treatsAsPassthrough_congr {d d' : Daemon} {k : Key}
    (h : d'.pendingPassthroughKeys = d.pendingPassthroughKeys) :
    d'.treatsAsPassthrough level k = d.treatsAsPassthrough level k := by
  simp only [treatsAsPassthrough, h]

/-- The state once the mark is taken. -/
def takeMark (level : SecurityLevel) (k : Key) (d : Daemon) : Daemon :=
  { d with pendingPassthroughKeys := d.pendingPassthroughKeys.erase (level, k) }

/-- A reply to a request without an alias is left alone. -/
theorem postGenerateKey_of_no_alias (ha : kd.bind KeyDescriptor.keyAlias = none) :
    d.postGenerateKey P env level uid kd (some p) = (d, .Skip) := by
  unfold postGenerateKey
  rw [ha]

/-- The post-hook on a reply: the mark is taken; a marked key is promoted and the reply left alone,
otherwise a reply with a leaf certificate is re-signed. -/
theorem postGenerateKey_eq (ha : kd.bind KeyDescriptor.keyAlias = some a) :
    d.postGenerateKey P env level uid kd (some p) =
      match p.keyMetadata with
      | none => (d.takeMark level ⟨uid, a⟩, .Skip)
      | some m =>
        if d.treatsAsPassthrough level ⟨uid, a⟩ then
          ((d.takeMark level ⟨uid, a⟩).promotePassthrough uid a m, .Skip)
        else
          match m, m.bind fun m => m.certificate.bind P.toCertificate with
          | some m, some leaf => (d.takeMark level ⟨uid, a⟩).patchGenerateKeyReply env level uid a m
              (leaf :: (m.certificateChain.map P.toCertificates).getD [])
          | _, _ => (d.takeMark level ⟨uid, a⟩, .Skip) := by
  unfold postGenerateKey Parcel.keyMetadata
  rw [ha]
  dsimp only
  cases hp : p.readException with
  | none => rfl
  | some body =>
    cases hm : body.readTypedObject Parcel.keyMetadataCreator with
    | none => simp [hm, takeMark]
    | some m =>
      obtain ⟨m, rest⟩ := m
      simp only [Option.bind_some, hm, Option.map_some, treatsAsPassthrough, decide_eq_true_eq]
      split
      · rfl
      · cases m with
        | none => rfl
        | some m =>
          dsimp only [Option.bind_some]
          cases m.certificate.bind P.toCertificate <;> rfl

theorem postGenerateKey_of_keyMetadata_none (ha : kd.bind KeyDescriptor.keyAlias = some a)
    (h : p.keyMetadata = none) :
    d.postGenerateKey P env level uid kd (some p) = (d.takeMark level ⟨uid, a⟩, .Skip) := by
  rw [postGenerateKey_eq ha, h]

theorem postGenerateKey_of_marked (ha : kd.bind KeyDescriptor.keyAlias = some a)
    {m : Option KeyMetadata} (hm : p.keyMetadata = some m)
    (h : d.treatsAsPassthrough level ⟨uid, a⟩ = true) :
    d.postGenerateKey P env level uid kd (some p) =
      ((d.takeMark level ⟨uid, a⟩).promotePassthrough uid a m, .Skip) := by
  rw [postGenerateKey_eq ha, hm]
  simp only [h, if_true]

variable (env) in
theorem postGenerateKey_of_leaf (ha : kd.bind KeyDescriptor.keyAlias = some a)
    {leaf : Certificate} (hl : p.leafCertificate P = some leaf)
    (h : d.treatsAsPassthrough level ⟨uid, a⟩ = false) :
    ∃ m, d.postGenerateKey P env level uid kd (some p) =
      (d.takeMark level ⟨uid, a⟩).patchGenerateKeyReply env level uid a m
        (leaf :: (m.certificateChain.map P.toCertificates).getD []) := by
  obtain ⟨m, hm, hleaf⟩ := Option.bind_eq_some_iff.1 hl
  refine ⟨m, ?_⟩
  rw [postGenerateKey_eq ha, Option.join_eq_some_iff.1 hm]
  simp only [h, Option.bind_some, hleaf]
  rfl

theorem postGenerateKey_of_no_leaf (ha : kd.bind KeyDescriptor.keyAlias = some a)
    (hl : p.leafCertificate P = none) (h : d.treatsAsPassthrough level ⟨uid, a⟩ = false) :
    d.postGenerateKey P env level uid kd (some p) = (d.takeMark level ⟨uid, a⟩, .Skip) := by
  rw [postGenerateKey_eq ha]
  cases hm : p.keyMetadata with
  | none => rfl
  | some m =>
    have hleaf : (m.bind fun m => m.certificate.bind P.toCertificate) = none := by
      simpa [Parcel.leafCertificate, hm] using hl
    simp only [h, hleaf]
    rfl

variable (P env uid level d kd) in
/-- What the post-hook can do: nothing, or take the mark and perhaps promote the key or re-sign the
reply. -/
theorem postGenerateKey_cases (reply : Option Parcel) :
    d.postGenerateKey P env level uid kd reply = (d, .Skip) ∨
      ∃ a, kd.bind KeyDescriptor.keyAlias = some a ∧
        (d.postGenerateKey P env level uid kd reply = (d.takeMark level ⟨uid, a⟩, .Skip) ∨
          (∃ m, d.postGenerateKey P env level uid kd reply =
            ((d.takeMark level ⟨uid, a⟩).promotePassthrough uid a m, .Skip)) ∨
          ∃ m chain, d.postGenerateKey P env level uid kd reply =
            (d.takeMark level ⟨uid, a⟩).patchGenerateKeyReply env level uid a m chain) := by
  cases reply with
  | none => exact .inl rfl
  | some p =>
    cases ha : kd.bind KeyDescriptor.keyAlias with
    | none => exact .inl (postGenerateKey_of_no_alias ha)
    | some a =>
      refine .inr ⟨a, rfl, ?_⟩
      rw [postGenerateKey_eq ha]
      split
      · exact .inl rfl
      · next m _ =>
        split_ifs
        · exact .inr (.inl ⟨m, rfl⟩)
        · split
          · exact .inr (.inr ⟨_, _, rfl⟩)
          · exact .inl rfl

/-- Whatever the reply, the mark is gone afterwards. -/
theorem postGenerateKey_pending (ha : kd.bind KeyDescriptor.keyAlias = some a) :
    (d.postGenerateKey P env level uid kd (some p)).1.pendingPassthroughKeys =
      d.pendingPassthroughKeys.erase (level, ⟨uid, a⟩) := by
  rw [postGenerateKey_eq ha]
  repeat' split
  all_goals rfl

end Daemon

end TrickyStore
