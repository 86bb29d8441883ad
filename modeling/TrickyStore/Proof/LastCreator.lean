import TrickyStore.Proof.Sequential

/-!
# The last creator owns the alias

Once the real keystore has created a key, an older forged or re-signed entry under the same alias
must not answer for it any more.  The routes that forward a request clear the older entry at
different points, and some not at all: a symmetric key's reply has no certificate, so the post-hook
returns before it clears; a request of a uid without mode has no post-hook.
-/

open Lib

namespace TrickyStore

open CertificateAliasCache

namespace Exchange

variable (P : Platform) (x : Exchange) (d : Daemon)

def isCreation : Bool :=
  match x.request with
  | .generateKey .. | .importKey .. => true
  | _ => false

/-- The request creates a key in the real keystore: it is forwarded and succeeds there. -/
def createsInKeystore : Bool :=
  x.isCreation && x.isForwarded P d && x.resultCode = 0 &&
    (x.reply.bind Parcel.readException).isSome

/-- The reply makes the post-hook replace the entries of `k`: the key is marked for passthrough, or
there is a leaf certificate to re-sign. -/
def replyReplaces (level : SecurityLevel) (k : Key) : Bool :=
  match x.reply with
  | none => false
  | some p =>
    (d.treatsAsPassthrough level k && p.keyMetadata.isSome) || (p.leafCertificate P).isSome

/-- The creation finds no entry of `k` or is on a route that clears the entries: an import of a
targeted uid, passthrough, or a forwarded generation whose reply gets as far as the clearing. -/
def replacesEntries (k : Key) : Bool :=
  !d.cache.isPatchedKey k ||
    match x.request with
    | .importKey _ _ => d.needHack x.preEnv x.uid || d.needGenerate x.preEnv x.uid
    | .generateKey level kd ak params =>
      match d.generateKeyRoute P x.preEnv x.uid kd ak params with
      | none | some .generate => false
      | some .passthroughRealTee => true
      | some _ => x.replyReplaces P d level k
    | _ => false

end Exchange

/-- No read that names the alias of a created key is answered from an entry that was there before
the creation. -/
def LastCreatorOwns (P : Platform) (d₀ : Daemon) (steps : List SequentialStep) : Prop :=
  ∀ before x between y after,
    steps = before ++ .exchange x :: (between ++ .exchange y :: after) →
    let d := Machine.run (Daemon.sequential P) d₀ before
    let d' := Machine.run (Daemon.sequential P) (d.serve P x).1 between
    ∀ k, x.namedKey = some k → x.createsInKeystore P d = true →
      y.namedKey = some k → y.request.isRead = true →
        ∀ o, (d'.serve P y).2.origin = some o → ¬ d.cache.HasEntry o

/-- Creations replace the entries of their key, and reads of an alias carry no id of another key. -/
def CreatorStep (P : Platform) (d : Daemon) : SequentialStep → Prop
  | .exchange x => ∀ k, x.namedKey = some k →
      (x.createsInKeystore P d = true → x.replacesEntries P d k = true) ∧
      (x.request.isRead = true → ∀ desc, x.request.keyDescriptor = some desc →
        ∀ k' ∈ d.cache.resolveOwnerKeys x.uid desc, k' = k)
  | .targetChanged _ => True

namespace CertificateAliasCache

/-- Every entry under `k` was made at `t` or later. -/
def NoOlder (k : Key) (t : ℕ) (c : CertificateAliasCache) : Prop :=
  ∀ o, o.key = k → c.HasEntry o → t ≤ o.serial

variable {k : Key} {t : ℕ} {c : CertificateAliasCache}

theorem noOlder_of_not_isPatchedKey (h : c.isPatchedKey k = false) : c.NoOlder k t := by
  rintro o rfl ho
  simp [ho.isPatchedKey] at h

theorem noOlder_clear : (c.clear k).NoOlder k t :=
  fun _ hk ho => absurd hk (hasEntry_clear.1 ho).1

/-- The keys that a descriptor resolves to can only become fewer when a key is cleared. -/
theorem resolveOwnerKeys_clear_subset {uid : Int} {desc : KeyDescriptor} {k k' : Key}
    (h : k' ∈ (c.clear k).resolveOwnerKeys uid desc) : k' ∈ c.resolveOwnerKeys uid desc := by
  rw [mem_resolveOwnerKeys] at h ⊢
  rcases h with ⟨hn, h | h⟩ | h
  · obtain ⟨h, huid⟩ := ownKey_eq_some.1 h
    exact .inl ⟨hn, .inl (ownKey_eq_some.2 ⟨(clear_keysByNspace_eq_some.1 h).1, huid⟩)⟩
  · obtain ⟨g, hg, h⟩ := grantedKey_eq_some.1 h
    rw [clear_grants, HashMap.lookup_removeIf_eq_some] at hg
    exact .inl ⟨hn, .inr (grantedKey_eq_some.2 ⟨g, hg.1, h⟩)⟩
  · exact .inr h

end CertificateAliasCache

namespace Daemon

variable {P : Platform} {d d' : Daemon} {k : Key} {t : ℕ}

/-- What later hooks preserve once a creation has replaced the entries of `k`. -/
structure CreatedSince (k : Key) (t : ℕ) (d : Daemon) : Prop where
  clock : t ≤ d.clock
  noOlder : d.cache.NoOlder k t

theorem CreatedSince.hook {request : Request} {ids : Int → Prop} {uid : Int}
    (h : d.CreatedSince k t) (hs : d.Steps uid request ids d.clock d')
    (hc : d'.clock = d.clock + 1) : d'.CreatedSince k t := by
  refine ⟨hc ▸ Nat.le_succ_of_le h.clock, fun o hk ho => ?_⟩
  rcases hs.hasEntry ho with ho | ho
  · exact h.noOlder o hk ho
  · exact ho ▸ h.clock

theorem CreatedSince.pre {env : Env} {uid : Int} {request : Request} (h : d.CreatedSince k t) :
    (d.pre P env uid request).1.CreatedSince k t :=
  h.hook (pre_steps P env request) (pre_clock ..)

theorem CreatedSince.post {env : Env} {uid : Int} {request : Request} {resultCode : Int}
    {reply : Option Parcel} (h : d.CreatedSince k t) :
    (d.post P env uid request resultCode reply).1.CreatedSince k t :=
  h.hook (post_steps P env request resultCode reply) (post_clock ..)

theorem CreatedSince.sequential {s : SequentialStep} (h : d.CreatedSince k t) :
    (d.sequential P s).CreatedSince k t := by
  cases s with
  | exchange x => exact serve_invariant h (fun _ h => h.pre) fun _ h => h.post
  | targetChanged => exact ⟨h.clock, h.noOlder⟩

/-- A creation whose key has no entry leaves none older than itself. -/
theorem createdSince_of_not_isPatchedKey {x : Exchange} (h : d.cache.isPatchedKey k = false) :
    (d.serve P x).1.CreatedSince k d.clock :=
  serve_invariant ⟨le_refl _, noOlder_of_not_isPatchedKey h⟩ (fun _ h => h.pre) fun _ h => h.post

theorem createdSince_importKey {x : Exchange} {level : SecurityLevel} {kd : Option KeyDescriptor}
    (hx : x.request = .importKey level kd) (hk : x.namedKey = some k)
    (hcreate : x.createsInKeystore P d = true)
    (hneed : (d.needHack x.preEnv x.uid || d.needGenerate x.preEnv x.uid) = true) :
    (d.serve P x).1.CreatedSince k d.clock := by
  have hpre : (x.preHook P d).2 = .Continue := by
    simp only [Exchange.preHook, pre, hx, onPreTransact, preImportKey, hneed, if_true]
  have hclock : (x.preHook P d).1.clock = d.clock + 1 := pre_clock ..
  rw [serve_of_continue hpre]
  obtain ⟨a, ha, rfl⟩ := Option.map_eq_some_iff.1 hk
  simp only [Exchange.createsInKeystore, Bool.and_eq_true] at hcreate
  obtain ⟨body, hbody⟩ := Option.isSome_iff_exists.1 hcreate.2
  have hkd : kd.bind KeyDescriptor.keyAlias = some a := by simpa [hx, Request.keyDescriptor] using ha
  have hpost : (x.postHook P (x.preHook P d).1).1 =
      ((x.preHook P d).1.cleanupKey ⟨x.uid, a⟩).tick := by
    simp only [Exchange.postHook, post, hx, onPostTransact, postImportKey, hbody, hkd]
  rw [hpost]
  refine ⟨?_, noOlder_clear⟩
  show d.clock ≤ (x.preHook P d).1.clock + 1
  omega

theorem noOlder_patchGenerateKeyReply {env : Env} {level : SecurityLevel} {uid : Int} {a : String}
    {m : KeyMetadata} {chain : List Certificate} :
    (d.patchGenerateKeyReply env level uid a m chain).1.cache.NoOlder ⟨uid, a⟩ d.clock := by
  intro o hk ho
  rcases hasEntry_storePatched ho with ho | rfl
  · exact absurd hk (hasEntry_clear.1 ho).1
  · exact le_refl _

theorem noOlder_promotePassthrough {uid : Int} {a : String} {m : Option KeyMetadata} :
    (d.promotePassthrough uid a m).cache.NoOlder ⟨uid, a⟩ t :=
  fun _ hk ho => absurd hk (hasEntry_clear.1 (hasEntry_register.1 ho)).1

/-- A reply that replaces the entries leaves none older than the post-hook. -/
theorem noOlder_postGenerateKey (env : Env) {level : SecurityLevel} {uid : Int}
    {kd : Option KeyDescriptor} {a : String} {p : Parcel}
    (ha : kd.bind KeyDescriptor.keyAlias = some a)
    (h : ((d.treatsAsPassthrough level ⟨uid, a⟩ && p.keyMetadata.isSome) ||
      (p.leafCertificate P).isSome) = true) :
    (d.postGenerateKey P env level uid kd (some p)).1.cache.NoOlder ⟨uid, a⟩ d.clock := by
  cases hmark : d.treatsAsPassthrough level ⟨uid, a⟩ with
  | true =>
    have hm : p.keyMetadata.isSome = true := by
      rcases Bool.or_eq_true_iff.1 h with h | h
      · exact (Bool.and_eq_true_iff.1 h).2
      · obtain ⟨leaf, hleaf⟩ := Option.isSome_iff_exists.1 h
        obtain ⟨m, hm, -⟩ := Option.bind_eq_some_iff.1 hleaf
        rw [Option.join_eq_some_iff.1 hm]
        rfl
    obtain ⟨m, hm⟩ := Option.isSome_iff_exists.1 hm
    rw [postGenerateKey_of_marked ha hm hmark]
    exact noOlder_promotePassthrough
  | false =>
    rw [hmark, Bool.false_and, Bool.false_or] at h
    obtain ⟨leaf, hleaf⟩ := Option.isSome_iff_exists.1 h
    obtain ⟨m, hpost⟩ := postGenerateKey_of_leaf env ha hleaf hmark
    rw [hpost]
    exact noOlder_patchGenerateKeyReply

theorem createdSince_generateKey {x : Exchange} {level : SecurityLevel}
    {kd ak : Option KeyDescriptor} {params : Option (List KeyParameter)}
    (hx : x.request = .generateKey level kd ak params) (hk : x.namedKey = some k)
    (hpatched : d.cache.isPatchedKey k = true) (hreplace : x.replacesEntries P d k = true) :
    (d.serve P x).1.CreatedSince k d.clock := by
  obtain ⟨a, ha, rfl⟩ := Option.map_eq_some_iff.1 hk
  have hkd : kd.bind KeyDescriptor.keyAlias = some a := by simpa [hx, Request.keyDescriptor] using ha
  have hpre : x.preHook P d = ((d.preGenerateKey P x.preEnv level x.uid kd ak params).1.tick,
      (d.preGenerateKey P x.preEnv level x.uid kd ak params).2) := Exchange.preHook_of_request d hx
  have hclock : (x.preHook P d).1.clock = d.clock + 1 := pre_clock ..
  simp only [Exchange.replacesEntries, hpatched, hx, Bool.not_true, Bool.false_or] at hreplace
  cases hroute : d.generateKeyRoute P x.preEnv x.uid kd ak params with
  | none => simp [hroute] at hreplace
  | some r =>
    by_cases hp : r = .passthroughRealTee
    · obtain ⟨a', ha', hcont, hcache, -⟩ :=
        preGenerateKey_of_passthrough level (hp ▸ hroute)
      obtain rfl : a' = a := by simpa [ha'] using hkd
      have h : (x.preHook P d).1.CreatedSince ⟨x.uid, a'⟩ d.clock := by
        refine ⟨by omega, ?_⟩
        rw [hpre]
        show (d.preGenerateKey P x.preEnv level x.uid kd ak params).1.cache.NoOlder _ _
        rw [hcache]
        exact noOlder_clear
      rw [serve_of_continue (by rw [hpre]; exact hcont)]
      exact h.post
    · by_cases hg : r = .generate
      · simp [hroute, hg] at hreplace
      · obtain ⟨_, _, hcont, -, -, hpending⟩ := preGenerateKey_of_forward level hroute
          (by cases r <;> simp_all [Route.isForward])
        rw [serve_of_continue (by rw [hpre]; exact hcont)]
        have hreplies : x.replyReplaces P d level ⟨x.uid, a⟩ = true := by
          cases r <;> simp_all
        cases hreply : x.reply with
        | none => simp [Exchange.replyReplaces, hreply] at hreplies
        | some p =>
          have hpost : (x.postHook P (x.preHook P d).1).1 = ((x.preHook P d).1.postGenerateKey P
              x.postEnv level x.uid kd (some p)).1.tick := by
            simp only [Exchange.postHook, post, hx, hreply, onPostTransact]
          have hmark : (x.preHook P d).1.treatsAsPassthrough level ⟨x.uid, a⟩ =
              d.treatsAsPassthrough level ⟨x.uid, a⟩ :=
            treatsAsPassthrough_congr (by rw [hpre]; exact hpending)
          simp only [Exchange.replyReplaces, hreply, ← hmark] at hreplies
          have hno := noOlder_postGenerateKey x.postEnv hkd hreplies
          refine ⟨?_, fun o ho hentry => ?_⟩
          · have := post_clock P x.postEnv x.uid (x.preHook P d).1 x.request x.resultCode x.reply
            show d.clock ≤ (x.postHook P (x.preHook P d).1).1.clock
            rw [Exchange.postHook, this]
            omega
          · rw [hpost] at hentry
            have := hno o ho hentry
            omega

end Daemon

/-- Every entry of the created key is as young as a creation that replaces the entries. -/
theorem Daemon.createdSince {P : Platform} {d : Daemon} {x : Exchange} {k : Key}
    (hk : x.namedKey = some k) (hcreate : x.createsInKeystore P d = true)
    (hreplace : x.replacesEntries P d k = true) : (d.serve P x).1.CreatedSince k d.clock := by
  cases hpatched : d.cache.isPatchedKey k with
  | false => exact createdSince_of_not_isPatchedKey hpatched
  | true =>
    cases hx : x.request with
    | generateKey level kd ak params => exact createdSince_generateKey hx hk hpatched hreplace
    | importKey level kd =>
      refine createdSince_importKey hx hk hcreate ?_
      simpa [Exchange.replacesEntries, hpatched, hx] using hreplace
    | _ => simp [Exchange.createsInKeystore, Exchange.isCreation, hx] at hcreate

/-- A read at most clears a key before the real keystore is asked. -/
theorem Daemon.read_pre_cache {P : Platform} {d : Daemon} {y : Exchange} (hy : y.request.isRead = true) :
    (y.preHook P d).1.cache = d.cache ∨ ∃ k, (y.preHook P d).1.cache = d.cache.clear k := by
  show (d.onPreTransact P y.preEnv y.uid y.request).1.cache = _ ∨ ∃ k,
    (d.onPreTransact P y.preEnv y.uid y.request).1.cache = _
  unfold Request.isRead at hy
  split at hy
  · next kd hreq =>
    rw [hreq]
    rcases (preGetKeyEntry_owners y.preEnv y.uid d kd).1 with h | ⟨a, h⟩
    · exact .inl h
    · exact .inr ⟨_, h⟩
  · next level kd opParams force hreq =>
    rw [hreq]
    left
    rcases preCreateOperation_fst P y.preEnv y.uid d kd opParams force with h | ⟨_, h⟩
    all_goals
      rw [onPreTransact, h]
  · cases hy

/-- A read that names only `k` is answered from a young entry. -/
theorem Daemon.CreatedSince.read {P : Platform} {d : Daemon} {y : Exchange} {k : Key} {t : ℕ}
    {o : Origin} (h : d.CreatedSince k t)
    (hread : ∀ desc, y.request.keyDescriptor = some desc →
      ∀ k' ∈ d.cache.resolveOwnerKeys y.uid desc, k' = k)
    (hy : y.request.isRead = true) (ho : (d.serve P y).2.origin = some o) : t ≤ o.serial := by
  rcases serve_origin ho with ho | ⟨-, ho⟩
  · obtain ⟨-, desc, hdesc, hkey, hentry⟩ := pre_answeredFrom ho
    exact h.noOlder o (hread desc hdesc _ hkey) hentry
  · obtain ⟨desc, hrequest, hkey, hentry⟩ := post_answeredFrom ho
    have hdesc : y.request.keyDescriptor = some desc := by rw [hrequest]; rfl
    have h' : (y.preHook P d).1.CreatedSince k t := h.pre
    refine h'.noOlder o (hread desc hdesc _ ?_) hentry
    rcases read_pre_cache (P := P) (d := d) hy with hc | ⟨k', hc⟩
    · rwa [hc] at hkey
    · rw [hc] at hkey
      exact resolveOwnerKeys_clear_subset hkey

/-- In a run whose creations replace the entries of their key, and whose reads carry no id of another
key, the last creator owns the alias. -/
theorem lastCreatorOwns_of_creatorSteps (P : Platform) (history : List Event)
    (steps : List SequentialStep)
    (h : Machine.AllSteps (Daemon.sequential P) (CreatorStep P) (World.run P {} history).daemon
      steps) :
    LastCreatorOwns P (World.run P {} history).daemon steps := by
  intro before x between y after hsteps d d' k hx hcreate hy hread o ho hold
  have htimed : d.Timed := Machine.run_invariant (fun _ _ h => h.sequential)
    (Daemon.timed_run history)
  have hxstep : CreatorStep P d (.exchange x) := h before _ _ hsteps
  have hystep : CreatorStep P d' (.exchange y) := by
    have := h (before ++ .exchange x :: between) (.exchange y) after (by simp [hsteps])
    rwa [Machine.run_append] at this
  have hsince : d'.CreatedSince k d.clock :=
    Machine.run_invariant (fun _ _ h => h.sequential)
      (Daemon.createdSince hx hcreate ((hxstep k hx).1 hcreate))
  have hnew : d.clock ≤ o.serial := hsince.read ((hystep k hy).2 hread) hread ho
  have holder : o.serial < d.clock := htimed o hold
  omega

/-! ## A key over a forged one -/

namespace Demo

/-- An EC key is forged, then a re-signed one takes its place in another mode and is read. -/
def resignedOverForged : List SequentialStep :=
  [.exchange (creation ecParams none), .targetChanged (modes .LEAF_HACK .AUTO),
    .exchange (creation ecParams (some (created 9 (some [10])))), .exchange reading]

def aesParams : List KeyParameter := [⟨Tag.ALGORITHM, .algorithm Algorithm.AES⟩]

/-- An EC key is forged, then the real keystore makes an AES key under the same alias, then the
alias is read. -/
def symmetricOverForged : List SequentialStep :=
  [.exchange (creation ecParams none), .exchange (creation aesParams (some (created 9 none))),
    .exchange reading]

end Demo

open Demo in
theorem lastCreatorOwns_resignedOverForged :
    LastCreatorOwns platform (World.run platform {} (start .GENERATE .AUTO)).daemon
      resignedOverForged := by
  have hstep {d : Daemon} {x : Exchange} (hx : x.namedKey = some key)
      (hreplace : (!x.createsInKeystore platform d || x.replacesEntries platform d key) = true)
      (hread : (x.request.keyDescriptor.any fun desc =>
        (d.cache.resolveOwnerKeys x.uid desc).all fun k => k = key) = true) :
      CreatorStep platform d (.exchange x) := by
    intro k hk
    obtain rfl := Option.some.inj (hx.symm.trans hk)
    refine ⟨fun h => by simpa [h] using hreplace, fun _ desc hdesc k' hk' => ?_⟩
    simp only [hdesc, Option.any_some, List.all_eq_true, decide_eq_true_eq] at hread
    exact hread k' hk'
  refine lastCreatorOwns_of_creatorSteps platform (start .GENERATE .AUTO) resignedOverForged ?_
  refine Machine.allSteps_cons (hstep rfl (by decide) (by decide)) ?_
  refine Machine.allSteps_cons trivial ?_
  refine Machine.allSteps_cons (hstep rfl (by decide) (by decide)) ?_
  exact Machine.allSteps_cons (hstep rfl (by decide) (by decide)) Machine.allSteps_nil

open Demo in
/-- The post-hook clears nothing for a reply without certificate, so the forged key still answers. -/
theorem symmetric_key_leaves_forged_entry :
    ¬ ∀ P history steps, LastCreatorOwns P (World.run P {} history).daemon steps := by
  intro h
  have hread := h platform (start .GENERATE .AUTO) symmetricOverForged
    [.exchange (creation ecParams none)] (creation aesParams (some (created 9 none))) [] reading []
    rfl key rfl (by decide) rfl rfl ⟨key, 0⟩
  exact hread (by decide) (.inl ⟨_, rfl, rfl⟩)

end TrickyStore
