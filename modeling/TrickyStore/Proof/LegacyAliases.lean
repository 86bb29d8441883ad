import TrickyStore.Lib.Unwinding
import TrickyStore.Proof.LegacyCalls

/-!
# Aliases of the legacy keystore

Requests about two aliases do not mix exactly if the aliases differ before their first underscores: that
part is all that the hooks keep of an alias.  For a call works on the entries of its key only, and whether
it is taken hangs on the packages of its caller.  The packages that any call of a uid is the first to find
are kept for all later ones; where they change, even aliases without a common part do not stay apart.
-/

open Lib

namespace TrickyStore

open CertificateHack

/-! ## What a call leaves alone -/

/-- What the hooks of a call do to the daemon: they resolve the packages of the caller, and touch no
algorithm of a leaf but that of the key. -/
structure LegacyFrame (c : LegacyCall) (d d' : Daemon) : Prop where
  keyboxes : d'.keyboxes = d.keyboxes
  packageModes : d'.config.packageModes = d.config.packageModes
  packages : ∀ u, d'.config.uidPackages.lookup u = d.config.uidPackages.lookup u ∨
    u = c.callingUid ∧ d'.config.uidPackages.lookup u = d.config.packages c.env.packageManager u
  leafAlgorithms : ∀ k, k ≠ c.key → d'.leafAlgorithms.lookup k = d.leafAlgorithms.lookup k

namespace LegacyFrame

variable {c : LegacyCall} {d d' d'' : Daemon}

theorem refl (c : LegacyCall) (d : Daemon) : LegacyFrame c d d := ⟨rfl, rfl, fun _ => .inl rfl, fun _ _ => rfl⟩

theorem trans (h : LegacyFrame c d d') (h' : LegacyFrame c d' d'') : LegacyFrame c d d'' := by
  refine ⟨h'.keyboxes.trans h.keyboxes, h'.packageModes.trans h.packageModes, fun u => ?_, fun k hk => ?_⟩
  · rcases h'.packages u with hkept | ⟨hu, hresolved⟩
    · rw [hkept]
      exact h.packages u
    · right
      refine ⟨hu, ?_⟩
      rw [hresolved, PkgConfig.packages]
      rcases h.packages u with hkept | ⟨-, hresolved'⟩
      · rw [hkept]
        rfl
      · rw [hresolved', PkgConfig.packages]
        cases d.config.uidPackages.lookup u <;> cases c.env.packageManager.getPackagesForUid u <;> rfl
  · exact (h'.leafAlgorithms k hk).trans (h.leafAlgorithms k hk)

theorem of_config (hkeyboxes : d'.keyboxes = d.keyboxes) (hleaf : d'.leafAlgorithms = d.leafAlgorithms)
    (hmodes : d'.config.packageModes = d.config.packageModes)
    (hlookup : ∀ u, d'.config.uidPackages.lookup u =
      if u = c.callingUid then d.config.packages c.env.packageManager c.callingUid
      else d.config.uidPackages.lookup u) : LegacyFrame c d d' := by
  refine ⟨hkeyboxes, hmodes, fun u => ?_, fun k _ => by rw [hleaf]⟩
  rw [hlookup]
  split_ifs with hu
  · exact .inr ⟨hu, by rw [hu]⟩
  · exact .inl rfl

theorem checked (c : LegacyCall) (d : Daemon) : LegacyFrame c d (d.checked c.env c.callingUid) :=
  of_config rfl rfl PkgConfig.checked_packageModes PkgConfig.checked_lookup

theorem resolved (c : LegacyCall) (d : Daemon) : LegacyFrame c d (d.resolved c.env c.callingUid) :=
  of_config rfl rfl PkgConfig.getOrPut_packageModes PkgConfig.getOrPut_lookup

/-- Whatever the package manager would say now, the packages that a uid was found to have stay. -/
theorem packages_eq {pm : PackageManager} {uid : Int} {ps : Option (List String)} (h : LegacyFrame c d d')
    (hps : d.config.packages pm uid = ps)
    (hcaller : c.callingUid = uid → d.config.packages c.env.packageManager uid = ps) :
    d'.config.packages pm uid = ps := by
  rcases h.packages uid with hkept | ⟨huid, hresolved⟩
  · rw [PkgConfig.packages, hkept]
    exact hps
  · rw [PkgConfig.packages, hresolved, hcaller huid.symm]
    cases ps with
    | some ps => rfl
    | none => exact (Option.or_eq_none_iff.1 hps).2

end LegacyFrame

namespace KeystoreInterceptor

variable {P : Platform} {s t : KeystoreInterceptor} {c : LegacyCall}

/-! ### The three cases of the post-hook -/

section Prefixes

variable {response : Bytes}

theorem hackResponse_user (huser : hasPrefix c.keyAlias Credentials.USER_CERTIFICATE = true) :
    s.hackResponse c.x c.env c.callingUid (c.request.keyAlias.getD "") response =
      some (hackUserCertificate c.x c.env s.shared response c.key) := if_pos huser

theorem hackResponse_ca (huser : ¬hasPrefix c.keyAlias Credentials.USER_CERTIFICATE = true)
    (hca : hasPrefix c.keyAlias Credentials.CA_CERTIFICATE = true) :
    s.hackResponse c.x c.env c.callingUid (c.request.keyAlias.getD "") response =
      some (hackCACertificateChain s.shared response c.key) := (if_neg huser).trans (if_pos hca)

theorem hackResponse_neither (huser : ¬hasPrefix c.keyAlias Credentials.USER_CERTIFICATE = true)
    (hca : ¬hasPrefix c.keyAlias Credentials.CA_CERTIFICATE = true) :
    s.hackResponse c.x c.env c.callingUid (c.request.keyAlias.getD "") response = none :=
  (if_neg huser).trans (if_neg hca)

end Prefixes

theorem hackUserCertificate_frame (d : Daemon) (certificate : Bytes) :
    LegacyFrame c d (hackUserCertificate c.x c.env d certificate c.key).1 := by
  unfold hackUserCertificate beginUserCertificate
  cases attestedLeaf c.x certificate with
  | none => exact .refl c d
  | some leaf =>
    have hbegun : LegacyFrame c d { d with
        leafAlgorithms := d.leafAlgorithms.insert c.key (c.x.publicKeyAlgorithm leaf) } :=
      ⟨rfl, rfl, fun _ => .inl rfl, fun k hk => AList.lookup_insert_ne hk⟩
    simp only [endUserCertificate]
    split_ifs
    · exact hbegun.trans (.resolved c _)
    · exact hbegun

theorem hackCACertificateChain_frame (d : Daemon) (caList : Bytes) :
    LegacyFrame c d (hackCACertificateChain d caList c.key).1 := by
  unfold hackCACertificateChain
  cases d.leafAlgorithms.lookup c.key with
  | none => exact .refl c d
  | some algorithm => exact ⟨rfl, rfl, fun _ => .inl rfl, fun k hk => AList.lookup_erase_ne hk⟩

theorem read_frame (s : KeystoreInterceptor) (c : LegacyCall) : LegacyFrame c s.shared (s.read c).1.shared := by
  unfold read onPostTransact
  split_ifs
  · exact .refl c _
  · cases (c.real.2.filter fun b => b ≠ []).bind replyValue with
    | none => exact .refl c _
    | some response =>
      simp only
      by_cases huser : hasPrefix c.keyAlias Credentials.USER_CERTIFICATE = true
      · rw [hackResponse_user huser]
        exact hackUserCertificate_frame s.shared response
      · by_cases hca : hasPrefix c.keyAlias Credentials.CA_CERTIFICATE = true
        · rw [hackResponse_ca huser hca]
          exact hackCACertificateChain_frame s.shared response
        · rw [hackResponse_neither huser hca]
          exact .refl c _

theorem next_frame (P : Platform) (s : KeystoreInterceptor) (c : LegacyCall) :
    LegacyFrame c s.shared (s.next P c).shared := by
  have hchecked := LegacyFrame.checked c s.shared
  by_cases hget : c.code = .get
  · have hpre := @onPreTransact_read P s c hget
    split_ifs at hpre
    · rw [(transact_continue hpre).1]
      exact hchecked.trans (read_frame (s.checked c.env c.callingUid) c)
    · rw [(transact_stop (by simp [hpre])).1, hpre]
      exact hchecked.trans (.checked c _)
    · rw [(transact_stop (by simp [hpre])).1, hpre]
      exact .refl c _
  · rw [(transact_stop (onPreTransact_ne_continue hget)).1]
    cases h : s.taken c with
    | true =>
      rw [onPreTransact_taken h hget, handled_state]
      exact hchecked
    | false =>
      rw [onPreTransact_not_taken h hget]
      split_ifs
      · exact hchecked
      · exact .refl c _

theorem next_entries_ne {k : Key} (hk : k ≠ c.key) : (s.next P c).entries k = s.entries k := by
  obtain ⟨hargs, hpairs⟩ := @next_lookup_ne P s c k hk
  rw [entries, entries, hargs, hpairs, (next_frame P s c).leafAlgorithms k hk]

/-! ## What a call looks at -/

theorem hackUserCertificate_leafAlgorithm (d : Daemon) (certificate : Bytes) :
    (hackUserCertificate c.x c.env d certificate c.key).1.leafAlgorithms.lookup c.key =
      ((attestedLeaf c.x certificate).map c.x.publicKeyAlgorithm).or (d.leafAlgorithms.lookup c.key) := by
  unfold hackUserCertificate beginUserCertificate
  cases attestedLeaf c.x certificate with
  | none => rfl
  | some leaf =>
    simp only [endUserCertificate]
    split_ifs <;> exact AList.lookup_insert _

theorem hackCACertificateChain_leafAlgorithm (d : Daemon) (caList : Bytes) :
    (hackCACertificateChain d caList c.key).1.leafAlgorithms.lookup c.key = none := by
  unfold hackCACertificateChain
  cases h : d.leafAlgorithms.lookup c.key with
  | none => exact h
  | some algorithm => exact AList.lookup_erase _ _

/-- The post-hook answers from the entries of the key and the keyboxes. -/
theorem read_congr (hentries : s.entries c.key = t.entries c.key)
    (hkeyboxes : s.shared.keyboxes = t.shared.keyboxes) :
    (s.read c).2 = (t.read c).2 ∧ (s.read c).1.entries c.key = (t.read c).1.entries c.key := by
  obtain ⟨hargs, hpairs, hleaf⟩ := LegacyEntries.mk.inj hentries
  unfold read onPostTransact
  split_ifs
  · exact ⟨rfl, hentries⟩
  · cases (c.real.2.filter fun b => b ≠ []).bind replyValue with
    | none => exact ⟨rfl, hentries⟩
    | some response =>
      simp only
      by_cases huser : hasPrefix c.keyAlias Credentials.USER_CERTIFICATE = true
      · rw [hackResponse_user huser, hackResponse_user huser]
        simp only [hackUserCertificate_bytes, hkeyboxes, entries, hackUserCertificate_leafAlgorithm, hargs, hpairs,
          hleaf, and_self]
      · by_cases hca : hasPrefix c.keyAlias Credentials.CA_CERTIFICATE = true
        · rw [hackResponse_ca huser hca, hackResponse_ca huser hca]
          simp only [hackCACertificateChain_bytes, chainDue, hkeyboxes, entries,
            hackCACertificateChain_leafAlgorithm, hargs, hpairs, hleaf, and_self]
        · rw [hackResponse_neither huser hca, hackResponse_neither huser hca]
          exact ⟨rfl, hentries⟩

theorem handled_entries (hargs : s.keyArguments.lookup c.key = t.keyArguments.lookup c.key)
    (hpairs : s.keyPairs.lookup c.key = t.keyPairs.lookup c.key)
    (hleaf : s.shared.leafAlgorithms.lookup c.key = t.shared.leafAlgorithms.lookup c.key) :
    (handled P s c).1.entries c.key = (handled P t c).1.entries c.key := by
  have hwritten : s.written c = t.written c := by simp only [written, hargs]
  have hmade : s.made c = t.made c := by simp only [made, hargs]
  rw [handled_state, handled_state]
  simp only [entries, hwritten, hmade, hleaf, LegacyEntries.mk.injEq, and_true]
  constructor
  · cases t.written c with
    | none => exact hargs
    | some kgp => simp only [Option.elim_some, AList.lookup_insert]
  · cases t.made c with
    | none => exact hpairs
    | some kp => simp only [Option.elim_some, AList.lookup_insert]

/-- What a client gets and the entries after the call hang on the entries of the key, the keyboxes and the
mode of the caller. -/
theorem next_congr (hentries : s.entries c.key = t.entries c.key) (hkeyboxes : s.shared.keyboxes = t.shared.keyboxes)
    (hhack : s.shared.needHack c.env c.callingUid = t.shared.needHack c.env c.callingUid)
    (hgenerate : s.shared.needGenerate c.env c.callingUid = t.shared.needGenerate c.env c.callingUid) :
    s.callbacks P c = t.callbacks P c ∧ s.reply P c = t.reply P c ∧
      (s.next P c).entries c.key = (t.next P c).entries c.key := by
  have hboxes : s.shared.hasKeyboxes = t.shared.hasKeyboxes := by
    rw [Daemon.hasKeyboxes, Daemon.hasKeyboxes, hkeyboxes]
  have htaken : s.taken c = t.taken c := by rw [taken, taken, hboxes, hgenerate]
  obtain ⟨hargs, hpairs, hleaf⟩ := LegacyEntries.mk.inj hentries
  have hanswer : (handled P s c).2 = (handled P t c).2 := handled_answer hargs hpairs hkeyboxes
  refine ⟨by rw [callbacks_eq, callbacks_eq, htaken, hanswer], ?_⟩
  by_cases hget : c.code = .get
  · have hs := @onPreTransact_read P s c hget
    have ht := @onPreTransact_read P t c hget
    rw [hboxes, hhack] at hs
    by_cases hgoes : t.shared.hasKeyboxes = true ∧ t.shared.needHack c.env c.callingUid = true
    · rw [if_pos hgoes.1, if_pos hgoes.2] at hs ht
      obtain ⟨hnext, hreply⟩ := transact_continue hs
      obtain ⟨hnext', hreply'⟩ := transact_continue ht
      obtain ⟨hresult, hafter⟩ := @read_congr (s.checked c.env c.callingUid) (t.checked c.env c.callingUid) c
        hentries hkeyboxes
      rw [hnext, hnext', hreply, hreply', hresult]
      exact ⟨rfl, hafter⟩
    · have hstop : ∃ s' t', s.onPreTransact P c.env c.callingUid c.request = (s', .Skip, []) ∧
          t.onPreTransact P c.env c.callingUid c.request = (t', .Skip, []) ∧ s'.entries c.key = t'.entries c.key := by
        split_ifs at hs ht with hbox hneed
        · exact absurd ⟨hbox, hneed⟩ hgoes
        · exact ⟨_, _, hs, ht, hentries⟩
        · exact ⟨_, _, hs, ht, hentries⟩
      obtain ⟨s', t', hs, ht, hafter⟩ := hstop
      obtain ⟨hnext, hreply⟩ := @transact_stop P s c (by simp [hs])
      obtain ⟨hnext', hreply'⟩ := @transact_stop P t c (by simp [ht])
      rw [hnext, hnext', hreply, hreply', hs, ht]
      exact ⟨rfl, hafter⟩
  · obtain ⟨hnext, hreply⟩ := @transact_stop P s c (onPreTransact_ne_continue hget)
    obtain ⟨hnext', hreply'⟩ := @transact_stop P t c (onPreTransact_ne_continue hget)
    rw [hnext, hnext', hreply, hreply']
    cases h : t.taken c with
    | true =>
      rw [onPreTransact_taken (htaken.trans h) hget, onPreTransact_taken h hget]
      have hchecked : (handled P (s.checked c.env c.callingUid) c).2 =
          (handled P (t.checked c.env c.callingUid) c).2 := handled_answer hargs hpairs hkeyboxes
      rw [hchecked]
      exact ⟨rfl, handled_entries hargs hpairs hleaf⟩
    | false =>
      rw [onPreTransact_not_taken (htaken.trans h) hget, onPreTransact_not_taken h hget, hboxes]
      refine ⟨rfl, ?_⟩
      split_ifs <;> exact hentries

end KeystoreInterceptor

/-! ## Two runs -/

/-- What a client gets from a call, and the entries of the key before and after it. -/
structure LegacyReply where
  callbacks : List LegacyCallback
  reply : BitVec 32 × Option Bytes
  before : LegacyEntries
  after : LegacyEntries
deriving DecidableEq, Repr

/-- The call is about this alias of the uid. -/
def LegacyCall.isAbout (uid : Int) (name : String) (c : LegacyCall) : Bool :=
  c.callingUid = uid && c.name = name

theorem LegacyCall.isAbout_iff {uid : Int} {name : String} {c : LegacyCall} :
    c.isAbout uid name = true ↔ c.callingUid = uid ∧ c.name = name := by
  simp only [isAbout, Bool.and_eq_true, decide_eq_true_eq]

namespace KeystoreInterceptor

variable (P : Platform) (uid : Int)

def replyTo (s : KeystoreInterceptor) (c : LegacyCall) : LegacyReply where
  callbacks := s.callbacks P c
  reply := s.reply P c
  before := s.entries c.key
  after := (s.next P c).entries c.key

/-- What the calls about an alias get in a run. -/
def repliesTo (name : String) (s : KeystoreInterceptor) (calls : List LegacyCall) : List LegacyReply :=
  Machine.observations (next P) (LegacyCall.isAbout uid name) (replyTo P) s calls

/-- The packages of the uid are the same at each of its calls, or known before them. -/
def SteadyPackages (s : KeystoreInterceptor) (calls : List LegacyCall) : Prop :=
  ∃ ps, ∀ c ∈ calls, c.callingUid = uid → s.shared.config.packages c.env.packageManager uid = ps

/-- The keyboxes and modes are those of the start, and so are the packages of the uid for whoever found
them there. -/
structure Unchanged (s₀ : KeystoreInterceptor) (ps : Option (List String)) (s : KeystoreInterceptor) : Prop where
  keyboxes : s.shared.keyboxes = s₀.shared.keyboxes
  packageModes : s.shared.config.packageModes = s₀.shared.config.packageModes
  packages : ∀ pm, s₀.shared.config.packages pm uid = ps → s.shared.config.packages pm uid = ps

variable {P uid} {s₀ s t : KeystoreInterceptor} {ps : Option (List String)} {c : LegacyCall} {a b : String}

theorem Unchanged.next (h : Unchanged uid s₀ ps s)
    (hc : c.callingUid = uid → s₀.shared.config.packages c.env.packageManager uid = ps) :
    Unchanged uid s₀ ps (s.next P c) := by
  have hframe := next_frame P s c
  refine ⟨hframe.keyboxes.trans h.keyboxes, hframe.packageModes.trans h.packageModes, fun pm hpm => ?_⟩
  exact hframe.packages_eq (h.packages pm hpm) fun hcaller => h.packages _ (hc hcaller)

/-- Both states take the calls of the uid in the same mode. -/
theorem Unchanged.needs_eq (hs : Unchanged uid s₀ ps s) (ht : Unchanged uid s₀ ps t) {pm : PackageManager}
    (hpm : s₀.shared.config.packages pm uid = ps) :
    s.shared.config.needHack pm uid = t.shared.config.needHack pm uid ∧
      s.shared.config.needGenerate pm uid = t.shared.config.needGenerate pm uid := by
  simp only [PkgConfig.needHack, PkgConfig.needGenerate, PkgConfig.checkNeed, hs.packages pm hpm,
    ht.packages pm hpm, hs.packageModes, ht.packageModes, TeeProbeClassifier.autoLeafHackAllowed,
    TeeProbeClassifier.autoGenerateAllowed, and_self]

theorem Unchanged.congr (hs : Unchanged uid s₀ ps s) (ht : Unchanged uid s₀ ps t)
    (hc : c.callingUid = uid → s₀.shared.config.packages c.env.packageManager uid = ps)
    (hcaller : c.callingUid = uid) (hentries : s.entries c.key = t.entries c.key) :
    s.callbacks P c = t.callbacks P c ∧ s.reply P c = t.reply P c ∧
      (s.next P c).entries c.key = (t.next P c).entries c.key := by
  obtain ⟨hhack, hgenerate⟩ := hs.needs_eq ht (hc hcaller)
  refine next_congr hentries (hs.keyboxes.trans ht.keyboxes.symm) ?_ ?_
  · rw [hcaller]
    exact hhack
  · rw [hcaller]
    exact hgenerate

/-- Aliases that differ before their first underscores have different keys. -/
theorem unwinding (P : Platform) (s₀ : KeystoreInterceptor) (ps : Option (List String))
    (hpart : aliasPart a ≠ aliasPart b) :
    Machine.Unwinding (next P) (fun c => !c.isAbout uid b)
      (fun s c => if c.isAbout uid a then some (replyTo P s c) else none)
      (fun c => c.callingUid = uid → s₀.shared.config.packages c.env.packageManager uid = ps)
      (Unchanged uid s₀ ps) (fun s t => s.entries ⟨uid, aliasPart a⟩ = t.entries ⟨uid, aliasPart a⟩) where
  invariant := fun hs hc => hs.next hc
  respects := by
    intro s t c _ _ _ hb halike
    have habout : c.isAbout uid b = true := by simpa using hb
    have hkey : (⟨uid, aliasPart a⟩ : Key) ≠ c.key := by
      rw [c.key_eq, (LegacyCall.isAbout_iff.1 habout).2]
      exact fun h => hpart (Key.mk.inj h).2
    rw [next_entries_ne hkey]
    exact halike
  consistent := by
    intro s t c hs ht hc _ halike
    by_cases hkey : (⟨uid, aliasPart a⟩ : Key) = c.key
    · have hcaller : c.callingUid = uid := by
        rw [c.key_eq] at hkey
        exact (Key.mk.inj hkey).1.symm
      rw [hkey] at halike ⊢
      exact (hs.congr ht hc hcaller halike).2.2
    · rw [next_entries_ne hkey, next_entries_ne hkey]
      exact halike
  output := by
    intro s t c hs ht hc _ halike
    by_cases ha : c.isAbout uid a = true
    · have habout := LegacyCall.isAbout_iff.1 ha
      have hkey : c.key = ⟨uid, aliasPart a⟩ := by rw [c.key_eq, habout.1, habout.2]
      rw [← hkey] at halike
      obtain ⟨hcallbacks, hreply, hafter⟩ := hs.congr (P := P) ht hc habout.1 halike
      rw [if_pos ha, if_pos ha, replyTo, replyTo, hcallbacks, hreply, hafter, halike]
    · rw [if_neg ha, if_neg ha]

end KeystoreInterceptor

/-! ## Aliases with the same part -/

namespace Demo

/-- A `generateKey` of the uid, and a question for what it has made. -/
def generateAlias (uid : Int) (name : String) : LegacyCall :=
  { callingUid := uid, name, code := .generateKey, x := x509
    arguments := some [⟨Tag.ALGORITHM, .int Algorithm.EC⟩]
    env := { packageManager := ⟨fun _ => some ["com.owner"], fun _ _ _ => false⟩ } }

def askAlias (uid : Int) (name : String) : LegacyCall :=
  { generateAlias uid name with code := .getKeyCharacteristics, arguments := none }

/-- A `generateKey` while the package manager does not know the uid. -/
def generateUnanswered (uid : Int) (name : String) : LegacyCall :=
  { generateAlias uid name with env := { packageManager := ⟨fun _ => none, fun _ _ _ => false⟩ } }

end Demo

namespace KeystoreInterceptor

open Demo

variable {P : Platform} {uid : Int} {s : KeystoreInterceptor} {a b : String}

/-- The answer names the algorithm that is stored, if there is one. -/
theorem callbacks_askAlias (htaken : s.taken (askAlias uid a) = true) :
    s.callbacks P (askAlias uid a) = (s.keyArguments.lookup ⟨uid, aliasPart a⟩).elim []
      fun kgp => [.keyCharacteristics [⟨Tag.ALGORITHM, .int kgp.algorithm⟩]] := by
  have hkey : (askAlias uid a).key = ⟨uid, aliasPart a⟩ := LegacyCall.key_eq _
  rw [callbacks_eq, htaken, if_pos rfl, ← hkey]
  show (s.getKeyCharacteristics (askAlias uid a).request (askAlias uid a).key).2.2 = _
  unfold getKeyCharacteristics
  cases s.keyArguments.lookup (askAlias uid a).key <;> rfl

theorem Unchanged.refl (uid : Int) (s : KeystoreInterceptor) (ps : Option (List String)) : Unchanged uid s ps s :=
  ⟨rfl, rfl, fun _ hpm => hpm⟩

/-- After a `generateKey` the question is still taken, and there are parameters under the key. -/
theorem next_generateAlias (P : Platform) (uid : Int) (b : String) :
    ((legacy .GENERATE .AUTO).next P (generateAlias uid b)).taken (askAlias uid a) = true ∧
      ∃ kgp, ((legacy .GENERATE .AUTO).next P (generateAlias uid b)).keyArguments.lookup ⟨uid, aliasPart b⟩ =
        some kgp := by
  constructor
  · have hunchanged := (Unchanged.refl uid (legacy .GENERATE .AUTO) (some ["com.owner"])).next (P := P)
      (c := generateAlias uid b) fun _ => rfl
    have hneeds := (@Unchanged.needs_eq _ _ _ _ _ hunchanged (.refl uid _ _)
      (generateAlias uid b).env.packageManager rfl).2
    have hboxes : ((legacy .GENERATE .AUTO).next P (generateAlias uid b)).shared.hasKeyboxes = true := by
      rw [Daemon.hasKeyboxes, hunchanged.keyboxes]
      rfl
    show (_ && _ && true) = true
    rw [hboxes, Bool.true_and, Bool.and_true]
    exact hneeds
  · obtain ⟨kgp, hkgp⟩ : ∃ kgp, (legacy .GENERATE .AUTO).written (generateAlias uid b) = some kgp := ⟨_, rfl⟩
    have hkey : (generateAlias uid b).key = ⟨uid, aliasPart b⟩ := LegacyCall.key_eq _
    have htaken : (legacy .GENERATE .AUTO).taken (generateAlias uid b) = true := rfl
    refine ⟨kgp, ?_⟩
    rw [((legacy .GENERATE .AUTO).next_maps P (generateAlias uid b)).1, htaken, if_pos rfl, hkgp, ← hkey]
    exact AList.lookup_insert _

/-- The key that `generateKey` makes for an alias is there for every alias with the same part. -/
theorem not_same_of_part (P : Platform) (uid : Int) (hpart : aliasPart a = aliasPart b) :
    repliesTo P uid a (legacy .GENERATE .AUTO) [generateAlias uid b, askAlias uid a] ≠
      repliesTo P uid a (legacy .GENERATE .AUTO)
        ([generateAlias uid b, askAlias uid a].filter fun c => !c.isAbout uid b) := by
  intro h
  have hb : (generateAlias uid b).isAbout uid b = true := LegacyCall.isAbout_iff.2 ⟨rfl, rfl⟩
  have ha : (askAlias uid a).isAbout uid a = true := LegacyCall.isAbout_iff.2 ⟨rfl, rfl⟩
  by_cases hab : a = b
  · subst hab
    simp [repliesTo, Machine.observations, hb, ha] at h
  · have hb' : (generateAlias uid b).isAbout uid a = false := by
      rw [← Bool.not_eq_true, LegacyCall.isAbout_iff]
      exact fun h => hab h.2.symm
    have ha' : (askAlias uid a).isAbout uid b = false := by
      rw [← Bool.not_eq_true, LegacyCall.isAbout_iff]
      exact fun h => hab h.2
    obtain ⟨htaken, kgp, hkgp⟩ := next_generateAlias (a := a) P uid b
    simp only [repliesTo, Machine.observations, hb, ha, hb', ha', List.filter_cons, List.filter_nil, Bool.not_true,
      Bool.not_false, if_true, Bool.false_eq_true, if_false, List.cons.injEq, and_true] at h
    have hcallbacks := congrArg LegacyReply.callbacks h
    simp only [replyTo] at hcallbacks
    rw [callbacks_askAlias htaken, callbacks_askAlias rfl, hpart, hkgp] at hcallbacks
    cases hcallbacks

/-- The packages that a call about one alias finds decide on a later call about another. -/
theorem not_same_of_unsteady (P : Platform) (uid : Int) (hab : a ≠ b) :
    repliesTo P uid a (legacy .GENERATE .AUTO) [generateAlias uid b, generateUnanswered uid a] ≠
      repliesTo P uid a (legacy .GENERATE .AUTO)
        ([generateAlias uid b, generateUnanswered uid a].filter fun c => !c.isAbout uid b) := by
  have hb : (generateAlias uid b).isAbout uid b = true := LegacyCall.isAbout_iff.2 ⟨rfl, rfl⟩
  have ha : (generateUnanswered uid a).isAbout uid a = true := LegacyCall.isAbout_iff.2 ⟨rfl, rfl⟩
  have hb' : (generateAlias uid b).isAbout uid a = false := by
    rw [← Bool.not_eq_true, LegacyCall.isAbout_iff]
    exact fun h => hab h.2.symm
  have ha' : (generateUnanswered uid a).isAbout uid b = false := by
    rw [← Bool.not_eq_true, LegacyCall.isAbout_iff]
    exact fun h => hab h.2
  have htaken : ((legacy .GENERATE .AUTO).next P (generateAlias uid b)).taken (generateUnanswered uid a) = true := by
    have hnext : ((legacy .GENERATE .AUTO).next P (generateAlias uid b)).shared =
        (legacy .GENERATE .AUTO).shared.checked (generateAlias uid b).env uid := by
      have hcode : (generateAlias uid b).code ≠ .get := fun h => LegacyTransaction.noConfusion h
      rw [(transact_stop (onPreTransact_ne_continue hcode)).1, onPreTransact_taken rfl hcode, handled_state]
      rfl
    have hfound : ((legacy .GENERATE .AUTO).shared.checked (generateAlias uid b).env uid).config.packages
        (generateUnanswered uid a).env.packageManager uid = some ["com.owner"] := by
      rw [PkgConfig.packages, Daemon.checked, PkgConfig.checked_lookup, if_pos rfl]
      rfl
    have hgenerate : ((legacy .GENERATE .AUTO).shared.checked (generateAlias uid b).env uid).needGenerate
        (generateUnanswered uid a).env uid = true := by
      rw [Daemon.needGenerate, PkgConfig.needGenerate, PkgConfig.checkNeed, hfound]
      rfl
    show (_ && _ && true) = true
    rw [hnext, Bool.and_true]
    exact hgenerate
  have hleft : (legacy .GENERATE .AUTO).taken (generateUnanswered uid a) = false := rfl
  intro h
  simp only [repliesTo, Machine.observations, hb, ha, hb', ha', List.filter_cons, List.filter_nil, Bool.not_true,
    Bool.not_false, if_true, Bool.false_eq_true, if_false, List.cons.injEq, and_true] at h
  have hcallbacks := congrArg LegacyReply.callbacks h
  simp only [replyTo] at hcallbacks
  rw [callbacks_eq, callbacks_eq, htaken, hleft] at hcallbacks
  cases hcallbacks

end KeystoreInterceptor

open KeystoreInterceptor in
/-- The calls about an alias get what they would get without those about another one, in every run in which
the packages of their uid are steady, exactly if the two aliases differ before their first underscores; in
the other runs no two aliases are apart. -/
theorem legacy_aliases_apart_iff (P : Platform) (uid : Int) (a b : String) :
    ((∀ (s : KeystoreInterceptor) (calls : List LegacyCall), SteadyPackages uid s calls →
      repliesTo P uid a s calls = repliesTo P uid a s (calls.filter fun c => !c.isAbout uid b)) ↔
        aliasPart a ≠ aliasPart b) ∧
    (a ≠ b → ¬ ∀ (s : KeystoreInterceptor) (calls : List LegacyCall),
      repliesTo P uid a s calls = repliesTo P uid a s (calls.filter fun c => !c.isAbout uid b)) := by
  refine ⟨?_, fun hab h => not_same_of_unsteady P uid hab (h _ _)⟩
  constructor
  · intro h hpart
    refine not_same_of_part P uid hpart (h _ _ ⟨some ["com.owner"], fun c hc _ => ?_⟩)
    simp only [List.mem_cons, List.not_mem_nil, or_false] at hc
    rcases hc with rfl | rfl <;> rfl
  · rintro hpart s calls ⟨ps, hsteady⟩
    refine (unwinding P s ps hpart).observations_left_out (fun c ha => ?_) (.refl uid s ps) (.refl uid s ps) rfl hsteady
    have hab : a ≠ b := fun h => hpart (congrArg aliasPart h)
    rw [Bool.not_eq_true', ← Bool.not_eq_true, LegacyCall.isAbout_iff]
    exact fun hb => hab ((LegacyCall.isAbout_iff.1 ha).2.symm.trans hb.2)

open KeystoreInterceptor Demo in
/-- A question about "k_1" is answered for the key "k_2". -/
theorem legacy_aliases_mixed :
    let calls := [generateAlias owner "k_2", askAlias owner "k_1"]
    let others := calls.filter fun c => !c.isAbout owner "k_2"
    SteadyPackages owner (legacy .GENERATE .AUTO) calls ∧
      (repliesTo platform owner "k_1" (legacy .GENERATE .AUTO) calls).map LegacyReply.callbacks =
        [[.keyCharacteristics [⟨Tag.ALGORITHM, .int Algorithm.EC⟩]]] ∧
      (repliesTo platform owner "k_1" (legacy .GENERATE .AUTO) others).map LegacyReply.callbacks = [[]] := by
  refine ⟨⟨some ["com.owner"], fun c hc _ => ?_⟩, by decide, by decide⟩
  simp only [List.mem_cons, List.not_mem_nil, or_false] at hc
  rcases hc with rfl | rfl <;> rfl

end TrickyStore
