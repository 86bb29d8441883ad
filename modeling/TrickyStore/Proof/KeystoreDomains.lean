import TrickyStore.Proof.AloofHooks

/-!
# Keystore domains

A descriptor of the domain `SELINUX` or `BLOB` names no key of the daemon.  The hooks resolve a
descriptor by its alias and its id, whatever its domain: such a request is left to the real keystore
exactly when the same descriptor in the domain `APP` would be.
-/

open Lib

namespace TrickyStore

open CertificateAliasCache

namespace Domain
def SELINUX : Int := 2
def BLOB : Int := 3
end Domain

/-- The descriptor is of a domain that the daemon has no keys in. -/
def KeyDescriptor.IsForeign (desc : KeyDescriptor) : Prop :=
  desc.domain = Domain.SELINUX ∨ desc.domain = Domain.BLOB

/-- The seven requests with a descriptor of a key that exists or is to be made. -/
def Request.isKeystoreCall : Request → Bool
  | .importKey .. | .listEntries .. => false
  | _ => true

/-- A keystore call whose descriptor is of a foreign domain. -/
def Request.IsForeign (request : Request) : Prop :=
  request.isKeystoreCall = true ∧ ∃ desc, request.keyDescriptor = some desc ∧ desc.IsForeign

/-- The real keystore answers, and no hook changes an owner. -/
def Exchange.LeftAlone (P : Platform) (x : Exchange) (d : Daemon) : Prop :=
  (d.serve P x).2 = .fromKeystore x.resultCode x.reply ∧ d.OwnersSame (x.preHook P d).1 ∧
    ((x.preHook P d).2 = .Continue →
      (x.preHook P d).1.OwnersSame (x.postHook P (x.preHook P d).1).1)

/-- The domains do not mix: a request for a foreign domain is left alone. -/
def Exchange.KeepsDomains (P : Platform) (x : Exchange) (d : Daemon) : Prop :=
  x.request.IsForeign → x.LeftAlone P d

/-- What the hooks look up for the descriptor, in whatever domain it is, is not there. -/
def Exchange.FindsNothing (P : Platform) (x : Exchange) (d : Daemon) : Prop :=
  match x.request with
  | .generateKey level (some desc) ak params =>
    x.refused P d = false ∧ d.NoGenerateBefore P x.preEnv x.uid desc level ak params ∧
      ∀ p, x.reply = some p → d.NoGenerateAfter P x.preEnv x.uid desc level ak params p
  | .createOperation _ (some desc) opParams force =>
    d.NoOperation P x.preEnv x.uid desc opParams force
  | .deleteKey (some desc) => ∀ a, desc.keyAlias = some a → d.Lacks ⟨x.uid, a⟩
  | .updateSubcomponent (some desc) _ _ => d.NoUpdate x.uid desc x.resultCode x.reply
  | .grant (some desc) granteeUid accessVector =>
    d.NoGrant x.uid desc granteeUid accessVector x.resultCode x.reply
  | .ungrant (some desc) granteeUid => d.NoUngrant x.uid desc granteeUid
  | .getKeyEntry (some desc) => d.NoEntryBefore x.preEnv x.uid desc ∧
      ∀ p, x.reply = some p → d.NoEntryAfter P x.preEnv x.uid desc p
  | _ => True

namespace Exchange

variable {P : Platform} {x : Exchange} {d : Daemon} {desc : KeyDescriptor}

theorem leftAlone_iff_aloof : x.LeftAlone P d ↔ d.Aloof (x.preHook P d) ∧
    ((x.preHook P d).2 = .Continue →
      (x.preHook P d).1.Aloof (x.postHook P (x.preHook P d).1)) := by
  unfold LeftAlone Daemon.Aloof Daemon.serve
  cases hpre : x.preHook P d with
  | mk d₁ r =>
    cases r with
    | Skip => simp [Result.isOverride]
    | OverrideReply => simp [Result.isOverride]
    | Continue =>
      cases hpost : x.postHook P d₁ with
      | mk d₂ r' => cases r' <;> simp [hpost, Result.isOverride]

/-- `getKeyEntry` is left alone when neither hook finds anything. -/
theorem getKeyEntry_leftAlone_iff (hrequest : x.request = .getKeyEntry (some desc)) :
    x.LeftAlone P d ↔ d.NoEntryBefore x.preEnv x.uid desc ∧
      ∀ p, x.reply = some p → d.NoEntryAfter P x.preEnv x.uid desc p := by
  have hpreHook : x.preHook P d = ((d.preGetKeyEntry x.preEnv x.uid (some desc)).1.tick,
      (d.preGetKeyEntry x.preEnv x.uid (some desc)).2) := by
    simp only [preHook, Daemon.pre, hrequest, Daemon.onPreTransact]
  rw [leftAlone_iff_aloof, hpreHook, Daemon.aloof_tick_iff, Daemon.preGetKeyEntry_aloof_iff]
  refine and_congr_right fun hbefore => ?_
  cases hreply : x.reply with
  | none =>
    refine iff_of_true (fun _ => ?_) (by simp)
    simp only [postHook, Daemon.post, hrequest, hreply, Daemon.onPostTransact]
    exact ⟨rfl, .of_owners rfl rfl⟩
  | some p =>
    simp only [postHook, Daemon.post, hrequest, hreply, Daemon.onPostTransact, Daemon.aloof_tick_iff,
      Option.some.injEq, forall_eq']
    by_cases hboxes : d.hasKeyboxes = true
    · obtain ⟨hgrants, hmode⟩ := hbefore hboxes
      rw [Daemon.preGetKeyEntry_eq_byMode hboxes hgrants, Daemon.getKeyEntryByMode_aloof_iff hmode]
      exact ⟨fun h _ => h, fun h => h hboxes⟩
    · have hskip : d.preGetKeyEntry x.preEnv x.uid (some desc) = (d, .Skip) := if_neg hboxes
      rw [hskip]
      exact iff_of_true (fun h => by cases h) fun h => absurd h hboxes

/-- Without a post-hook the pre-hook decides. -/
theorem leftAlone_iff_of_ne_continue (h : (x.preHook P d).2 ≠ .Continue) :
    x.LeftAlone P d ↔ d.Aloof (x.preHook P d) := by
  rw [leftAlone_iff_aloof]
  exact and_iff_left fun hcontinue => absurd hcontinue h

theorem preHook_eq : x.preHook P d = ((d.onPreTransact P x.preEnv x.uid x.request).1.tick,
    (d.onPreTransact P x.preEnv x.uid x.request).2) := rfl

theorem deleteKey_leftAlone_iff (hrequest : x.request = .deleteKey (some desc)) :
    x.LeftAlone P d ↔ ∀ a, desc.keyAlias = some a → d.Lacks ⟨x.uid, a⟩ := by
  rw [leftAlone_iff_aloof, preHook_eq, hrequest, Daemon.onPreTransact, Daemon.aloof_tick_iff,
    Daemon.preDeleteKey_aloof_iff]
  refine and_iff_left_of_imp fun h _ => ?_
  have hpre := (Daemon.preDeleteKey_aloof_iff.2 h).2
  have hlacks (a : String) (ha : desc.keyAlias = some a) :
      (d.preDeleteKey x.uid (some desc)).1.Lacks ⟨x.uid, a⟩ := hpre.lacks_iff.2 (h a ha)
  rw [postHook, Daemon.post, Daemon.aloof_tick_iff, hrequest]
  cases x.reply with
  | none => exact ⟨rfl, .of_owners rfl rfl⟩
  | some p => exact Daemon.postDeleteKey_aloof hlacks

theorem ungrant_leftAlone_iff {granteeUid : Int}
    (hrequest : x.request = .ungrant (some desc) granteeUid) :
    x.LeftAlone P d ↔ d.NoUngrant x.uid desc granteeUid := by
  have hpre : x.preHook P d = ((d.preUngrant x.uid (some desc) granteeUid).1.tick,
      (d.preUngrant x.uid (some desc) granteeUid).2) := by
    rw [preHook_eq, hrequest, Daemon.onPreTransact]
  rw [leftAlone_iff_of_ne_continue (by rw [hpre]; exact Daemon.preUngrant_ne_continue), hpre,
    Daemon.aloof_tick_iff, Daemon.preUngrant_aloof_iff]

theorem createOperation_leftAlone_iff {level : SecurityLevel} {opParams : List KeyParameter}
    {force : Bool} (hrequest : x.request = .createOperation level (some desc) opParams force) :
    x.LeftAlone P d ↔ d.NoOperation P x.preEnv x.uid desc opParams force := by
  have hpre : x.preHook P d = ((d.preCreateOperation P x.preEnv x.uid (some desc) opParams force).1.tick,
      (d.preCreateOperation P x.preEnv x.uid (some desc) opParams force).2) := by
    rw [preHook_eq, hrequest, Daemon.onPreTransact]
  rw [leftAlone_iff_of_ne_continue (by rw [hpre]; exact Daemon.preCreateOperation_ne_continue), hpre,
    Daemon.aloof_tick_iff, Daemon.preCreateOperation_aloof_iff]

theorem grant_leftAlone_iff {granteeUid : Int} {accessVector : BitVec 32}
    (hrequest : x.request = .grant (some desc) granteeUid accessVector) :
    x.LeftAlone P d ↔ d.NoGrant x.uid desc granteeUid accessVector x.resultCode x.reply := by
  rw [leftAlone_iff_aloof, preHook_eq, hrequest, Daemon.onPreTransact, Daemon.aloof_tick_iff,
    Daemon.preGrant_aloof_iff]
  constructor
  · rintro ⟨hforged, hpost⟩ hboxes k hk
    refine ⟨hforged hboxes k hk, fun n hpatched hcode hn => ?_⟩
    obtain ⟨p, hp, hn⟩ := Option.bind_eq_some_iff.1 hn
    have hforwarded : d.preGrant x.preEnv x.uid (some desc) granteeUid accessVector = (d, .Continue) := by
      have hk' : d.cache.keys.containsKey k = false := HashMap.containsKey_eq_false.2 (hforged hboxes k hk)
      simp [Daemon.preGrant, hboxes, hk, hk', hpatched]
    rw [hforwarded, postHook, Daemon.post, Daemon.aloof_tick_iff, hrequest, hp] at hpost
    have hsame := Daemon.postGrant_aloof_iff.1 (hpost rfl)
    exact hsame hboxes k hk n hpatched hcode hn
  · intro h
    refine ⟨fun hboxes k hk => (h hboxes k hk).1, fun hcontinue => ?_⟩
    rw [(Daemon.preGrant_continue hcontinue).1, postHook, Daemon.post, Daemon.aloof_tick_iff, hrequest]
    cases hp : x.reply with
    | none => exact ⟨rfl, .of_owners rfl rfl⟩
    | some p =>
      refine Daemon.postGrant_aloof_iff.2 fun hboxes k hk n hpatched hcode hn => ?_
      exact (h hboxes k hk).2 n hpatched hcode (by rw [hp]; exact hn)

theorem updateSubcomponent_leftAlone_iff {cert chain : Option Bytes}
    (hrequest : x.request = .updateSubcomponent (some desc) cert chain) :
    x.LeftAlone P d ↔ d.NoUpdate x.uid desc x.resultCode x.reply := by
  rw [leftAlone_iff_aloof, preHook_eq, hrequest, Daemon.onPreTransact, Daemon.aloof_tick_iff]
  unfold Daemon.NoUpdate
  have hhook : d.Aloof (d.preUpdateSubcomponent x.uid (some desc) cert chain) ↔ _ :=
    Daemon.preUpdateSubcomponent_aloof_iff
  rw [← and_assoc, ← hhook]
  refine and_congr_right fun hpre => ?_
  have hcontinue := Daemon.preUpdateSubcomponent_continue hpre
  rw [hcontinue, postHook, Daemon.post, Daemon.aloof_tick_iff, hrequest]
  simp only [forall_const]
  cases hp : x.reply with
  | none => exact iff_of_true ⟨rfl, .of_owners rfl rfl⟩ (by simp)
  | some p =>
    have hpost : (d.preUpdateSubcomponent x.uid (some desc) cert chain).1.tick.Aloof
        ((d.preUpdateSubcomponent x.uid (some desc) cert chain).1.tick.postUpdateSubcomponent x.uid
          (some desc) x.resultCode) ↔ _ := Daemon.postUpdateSubcomponent_aloof_iff
    have hafter : (d.preUpdateSubcomponent x.uid (some desc) cert chain).1.tick.invalidatedAfter x.uid
        desc = d.invalidatedAfter x.uid desc := hpre.2.invalidatedAfter
    have hlacks (k : Key) : (d.preUpdateSubcomponent x.uid (some desc) cert chain).1.tick.Lacks k ↔
        d.Lacks k := hpre.2.lacks_iff
    simp only [hafter, hlacks] at hpost
    simpa [Daemon.onPostTransact] using hpost

/-! ## generateKey -/

/-- A refusal is a local answer. -/
theorem checkGenerateKey_of_refused {level : SecurityLevel} {ak : Option KeyDescriptor}
    {params : Option (List KeyParameter)}
    (hrequest : x.request = .generateKey level (some desc) ak params) (h : x.refused P d = true) :
    ∃ d₁ r, d.checkGenerateKey P x.preEnv x.uid (some desc) ak params = (d₁, .error r) ∧
      r.isOverride = true := by
  unfold refused at h
  rw [hrequest] at h
  cases params with
  | none => cases h
  | some ps =>
    unfold Daemon.checkGenerateKey
    dsimp only at h ⊢
    by_cases hchallenge : ((KeyGenParameters.ofParams P.x500Name ps).attestationChallenge.any fun c =>
        c.length > MAX_ATTESTATION_CHALLENGE_BYTES) = true
    · exact ⟨_, _, if_pos hchallenge, rfl⟩
    · rw [Bool.not_eq_true] at hchallenge
      rw [hchallenge, Bool.false_or, Bool.and_eq_true] at h
      obtain ⟨a, ha⟩ := Option.isSome_iff_exists.1 h.1
      simp only [hchallenge, ha, Bool.false_eq_true, if_false]
      by_cases hdate : (ps.any fun p => decide (p.tag = Tag.CREATION_DATETIME)) = true
      · exact ⟨_, _, if_pos hdate, rfl⟩
      · have hdevice := h.2
        rw [Bool.not_eq_true] at hdate
        rw [hdate, Bool.false_or, Bool.and_eq_true, Bool.not_eq_true'] at hdevice
        simp only [hdate, hdevice.1, hdevice.2, Bool.false_eq_true, if_false, if_true]
        exact ⟨_, _, rfl, rfl⟩

theorem generateKey_leftAlone_iff {level : SecurityLevel} {ak : Option KeyDescriptor}
    {params : Option (List KeyParameter)}
    (hrequest : x.request = .generateKey level (some desc) ak params) :
    x.LeftAlone P d ↔ x.refused P d = false ∧
      d.NoGenerateBefore P x.preEnv x.uid desc level ak params ∧
        ∀ p, x.reply = some p → d.NoGenerateAfter P x.preEnv x.uid desc level ak params p := by
  have hpreHook : x.preHook P d =
      ((d.preGenerateKey P x.preEnv level x.uid (some desc) ak params).1.tick,
        (d.preGenerateKey P x.preEnv level x.uid (some desc) ak params).2) := by
    rw [preHook_eq, hrequest, Daemon.onPreTransact]
  rw [leftAlone_iff_aloof, hpreHook, Daemon.aloof_tick_iff]
  by_cases hrefused : x.refused P d = true
  · obtain ⟨d₁, r, hcheck, hr⟩ := checkGenerateKey_of_refused hrequest hrefused
    refine iff_of_false (fun h => ?_) (by simp [hrefused])
    have hanswer := h.1.1
    rw [Daemon.preGenerateKey, hcheck] at hanswer
    exact Bool.noConfusion (hr.symm.trans hanswer)
  · rw [Bool.not_eq_true] at hrefused
    have hchecks (d₁ : Daemon) (r : Result)
        (h : d.checkGenerateKey P x.preEnv x.uid (some desc) ak params = (d₁, .error r)) :
        r.isOverride = false := by
      rw [Daemon.checkGenerateKey_of_not_refused hrequest hrefused h]
      rfl
    rw [Daemon.preGenerateKey_aloof_iff hchecks, hrefused]
    simp only [true_and]
    refine and_congr_right fun hbefore => ?_
    have hpre := (Daemon.preGenerateKey_aloof_iff hchecks).2 hbefore
    constructor
    · intro hpost p hp a r m ha hroute hr hm
      have hpost' := hpost (Daemon.preGenerateKey_eq_continue_iff.2 ⟨r, hroute, hr⟩)
      rw [postHook, Daemon.post, Daemon.aloof_tick_iff, hrequest, hp] at hpost'
      have haloof := (Daemon.postGenerateKey_aloof_iff ha).1 hpost' m hm
      simpa only [hpre.2.tick.promoted_iff,
        Daemon.treatsAsPassthrough_preGenerateKey ha hroute hr] using haloof
    · intro hafter hcontinue
      obtain ⟨r, hroute, hr⟩ := Daemon.preGenerateKey_eq_continue_iff.1 hcontinue
      obtain ⟨a, ha⟩ := Daemon.keyAlias_of_generateKeyRoute hroute
      rw [postHook, Daemon.post, Daemon.aloof_tick_iff, hrequest]
      cases hp : x.reply with
      | none => exact ⟨rfl, .of_owners rfl rfl⟩
      | some p =>
        refine (Daemon.postGenerateKey_aloof_iff ha).2 fun m hm => ?_
        simpa only [hpre.2.tick.promoted_iff,
          Daemon.treatsAsPassthrough_preGenerateKey ha hroute hr] using hafter p hp a r m ha hroute hr hm

/-- Whatever its domain, a descriptor is left alone exactly when the hooks find nothing for it. -/
theorem leftAlone_iff_findsNothing (hcall : x.request.isKeystoreCall = true)
    (hdesc : x.request.keyDescriptor = some desc) : x.LeftAlone P d ↔ x.FindsNothing P d := by
  unfold FindsNothing
  cases hrequest : x.request <;> rw [hrequest] at hcall hdesc <;> cases hcall <;> cases hdesc
  · exact generateKey_leftAlone_iff hrequest
  · exact createOperation_leftAlone_iff hrequest
  · exact deleteKey_leftAlone_iff hrequest
  · exact updateSubcomponent_leftAlone_iff hrequest
  · exact grant_leftAlone_iff hrequest
  · exact ungrant_leftAlone_iff hrequest
  · exact getKeyEntry_leftAlone_iff hrequest

end Exchange

/-- After every history the domains are kept apart exactly for the requests for which nothing is
found. -/
theorem keepsDomains_iff (P : Platform) (history : List Event) (x : Exchange) :
    x.KeepsDomains P (World.run P {} history).daemon ↔
      (x.request.IsForeign → x.FindsNothing P (World.run P {} history).daemon) := by
  unfold Exchange.KeepsDomains
  refine imp_congr_right fun hforeign => ?_
  obtain ⟨hcall, desc, hdesc, -⟩ := hforeign
  exact Exchange.leftAlone_iff_findsNothing hcall hdesc

namespace Demo

/-- The descriptor of the key "a" in an `SELINUX` namespace. -/
def selinux : KeyDescriptor := { domain := Domain.SELINUX, nspace := 102, keyAlias := some "a" }

/-- The owner forges the key "a" of its own in `!` mode. -/
def forgesOwn : List Event := start .GENERATE .AUTO ++ [.arrive 1 owner (generate ecParams) (env 5)]

end Demo

open Demo in
/-- The owner deletes the key "a" of an `SELINUX` namespace, and its own key "a" is gone. -/
theorem selinux_deletes_own_key :
    ¬ ∀ (P : Platform) (history : List Event) (x : Exchange),
      x.KeepsDomains P (World.run P {} history).daemon := by
  intro h
  have hkept := h platform forgesOwn
    { uid := owner, request := .deleteKey (some selinux), preEnv := env 6, postEnv := env 6 }
    ⟨rfl, selinux, rfl, .inl rfl⟩
  exact absurd hkept.1 (by decide)

end TrickyStore
