import TrickyStore.Proof.LegacyCalls

/-!
# The key pair of a legacy key

The parameters of a forged key are stored by `generateKey`, its pair by `exportKey`, and `attestKey` signs a
leaf for the pair that is stored.  So the pair changes with every `exportKey`, and after a new `generateKey`
the old one stays until the next.  The public key is kept if a pair is made once after each `generateKey`
and before the first leaf.
-/

open Lib

namespace TrickyStore

/-- The parameters without the challenge that `attestKey` adds, which no pair is made from. -/
def KeyGenParameters.unchallenged (params : KeyGenParameters) : KeyGenParameters :=
  { params with attestationChallenge := none }

/-- What has become of an alias since its last `generateKey`: the parameters that this one left, the pairs
made since with what they were made from, and the public keys in the replies. -/
structure KeyGeneration where
  parameters : Option KeyGenParameters
  made : List (KeyGenParameters × KeyPair) := []
  reported : List Bytes := []
deriving DecidableEq, Repr

/-- All replies carry one public key, and it is that of a pair made with the parameters of `generateKey`. -/
def KeyGeneration.Kept (g : KeyGeneration) : Prop :=
  (∀ key ∈ g.reported, ∀ key' ∈ g.reported, key = key') ∧
    ∀ key ∈ g.reported, ∃ m ∈ g.made, m.2.publicKey = key ∧
      g.parameters.map KeyGenParameters.unchallenged = some m.1.unchallenged

instance (g : KeyGeneration) : Decidable g.Kept := by
  unfold KeyGeneration.Kept
  infer_instance

/-- The public keys that a callback is called with; `certificateKey` reads the one of a certificate. -/
def reportedKeys (certificateKey : Bytes → Option Bytes) : LegacyCallback → List Bytes
  | .keyCharacteristics _ => []
  | .exportResult publicKey => [publicKey]
  | .certificateChain chain => (chain.bind fun certificates => certificates.head?.bind certificateKey).toList

/-- A leaf is built for the public key of the pair. -/
def CarriesKey (certificateKey : Bytes → Option Bytes) (env : Env) : Prop :=
  ∀ request leaf, env.buildCertificate request = some leaf →
    certificateKey leaf.encoded = some request.keyPair.publicKey

/-- The interceptor with what has become of each alias, as the clients call it. -/
structure LegacyKeys where
  interceptor : KeystoreInterceptor
  generation : Key → Option KeyGeneration := fun _ => none

namespace LegacyCall

/-- The alias as the client calls it. -/
def client (c : LegacyCall) : Key := ⟨c.callingUid, c.name⟩

theorem key_eq_client {c : LegacyCall} (h : '_' ∉ c.name.toList) : c.key = c.client := by
  rw [c.key_eq, aliasPart_eq h, client]

end LegacyCall

namespace LegacyKeys

variable (P : Platform) (certificateKey : Bytes → Option Bytes) (s : LegacyKeys) (c : LegacyCall)

def start (shared : Daemon) : LegacyKeys := { interceptor := { shared } }

/-- The parameters that a `generateKey` leaves; none if the hook does not take it or it has none. -/
def stored : Option KeyGenParameters :=
  if s.interceptor.taken c then s.interceptor.written c else none

/-- The pair that the call makes, with the parameters it is made from. -/
def made : Option (KeyGenParameters × KeyPair) :=
  if s.interceptor.taken c then
    (s.interceptor.keyArguments.lookup c.key).bind fun kgp => (s.interceptor.made c).map fun kp => (kgp, kp)
  else none

/-- The pair that the call asks a leaf for. -/
def attested : Option KeyPair :=
  if s.interceptor.taken c then s.interceptor.attested c else none

def reported : List Bytes := (s.interceptor.callbacks P c).flatMap (reportedKeys certificateKey)

def next : LegacyKeys where
  interceptor := s.interceptor.next P c
  generation := Function.update s.generation c.client
    (if c.code = .generateKey then some { parameters := s.stored c }
    else (s.generation c.client).map fun g =>
      { g with made := g.made ++ (s.made c).toList, reported := g.reported ++ s.reported P certificateKey c })

/-- A pair is made only for the parameters of the last `generateKey` and only once, and a leaf is asked for
only afterwards. -/
def MadeOnce : Prop :=
  match s.generation c.client with
  | none => True
  | some g => (s.made c ≠ none → g.parameters ≠ none ∧ g.made = []) ∧ (s.attested c ≠ none → g.made ≠ [])

instance : Decidable (s.MadeOnce c) := by
  unfold MadeOnce
  split <;> infer_instance

/-! ## One call -/

variable {P certificateKey s c}

theorem made_eq_some {m : KeyGenParameters × KeyPair} : s.made c = some m ↔
    s.interceptor.taken c = true ∧ s.interceptor.keyArguments.lookup c.key = some m.1 ∧
      s.interceptor.made c = some m.2 := by
  unfold made
  cases s.interceptor.taken c <;> cases s.interceptor.keyArguments.lookup c.key <;>
    cases s.interceptor.made c <;> simp [Prod.ext_iff]

/-- A pair is made for the parameters that are stored. -/
theorem made_keyPairs (s : LegacyKeys) (c : LegacyCall) :
    (if s.interceptor.taken c then s.interceptor.made c else none) = (s.made c).map Prod.snd := by
  unfold made
  cases s.interceptor.taken c with
  | false => rfl
  | true =>
    unfold KeystoreInterceptor.made
    cases c.code <;> cases s.interceptor.keyArguments.lookup c.key <;> simp

/-- Only a `generateKey` changes more of the parameters than the challenge. -/
theorem written_unchallenged {kgp : KeyGenParameters} (hcode : c.code ≠ .generateKey)
    (h : s.interceptor.written c = some kgp) :
    (s.interceptor.keyArguments.lookup c.key).map KeyGenParameters.unchallenged = some kgp.unchallenged := by
  unfold KeystoreInterceptor.written at h
  cases hc : c.code with
  | generateKey => exact absurd hc hcode
  | attestKey =>
    rw [hc] at h
    obtain ⟨kma, -, h⟩ := Option.bind_eq_some_iff.1 h
    obtain ⟨challenge, -, h⟩ := Option.bind_eq_some_iff.1 h
    obtain ⟨stored, hstored, rfl⟩ := Option.map_eq_some_iff.1 h
    rw [hstored]
    rfl
  | get => simp [hc] at h
  | getKeyCharacteristics => simp [hc] at h
  | exportKey => simp [hc] at h

theorem stored_unchallenged {kgp : KeyGenParameters} (hcode : c.code ≠ .generateKey)
    (h : s.stored c = some kgp) :
    (s.interceptor.keyArguments.lookup c.key).map KeyGenParameters.unchallenged = some kgp.unchallenged := by
  unfold stored at h
  split_ifs at h
  exact written_unchallenged hcode h

/-- A leaf is asked for the pair that is there. -/
theorem lookup_of_attested {kp : KeyPair} (h : s.attested c = some kp) :
    s.interceptor.keyPairs.lookup c.key = some kp := by
  unfold attested at h
  split_ifs at h
  unfold KeystoreInterceptor.attested at h
  split at h
  · obtain ⟨_, -, hlookup⟩ := Option.bind_eq_some_iff.1 h
    exact hlookup
  · cases h

/-- A reply carries the key of the pair that the call makes, or asks a leaf for. -/
theorem mem_reported {key : Bytes} (hcarries : CarriesKey certificateKey c.env)
    (h : key ∈ s.reported P certificateKey c) :
    (∃ m, s.made c = some m ∧ m.2.publicKey = key) ∨ ∃ kp, s.attested c = some kp ∧ kp.publicKey = key := by
  obtain ⟨callback, hcallback, hkey⟩ := List.mem_flatMap.1 h
  rw [KeystoreInterceptor.callbacks_eq] at hcallback
  cases htaken : s.interceptor.taken c with
  | false => simp [htaken] at hcallback
  | true =>
    rw [htaken, if_pos rfl] at hcallback
    rcases KeystoreInterceptor.made_or_attested hcallback with
      ⟨kma, rfl⟩ | ⟨kp, hmade, rfl⟩ | ⟨kgp, kp, -, hattested, rfl⟩
    · exact absurd hkey (by simp [reportedKeys])
    · obtain rfl := List.mem_singleton.1 hkey
      have hmap := made_keyPairs s c
      rw [htaken, if_pos rfl, hmade] at hmap
      obtain ⟨m, hm, rfl⟩ := Option.map_eq_some_iff.1 hmap.symm
      exact .inl ⟨m, hm, rfl⟩
    · refine .inr ⟨kp, by rw [attested, htaken, if_pos rfl, hattested], ?_⟩
      simp only [reportedKeys, Option.mem_toList] at hkey
      obtain ⟨chain, hchain, hkey⟩ := Option.bind_eq_some_iff.1 hkey
      simp only [KeystoreInterceptor.generateChain, Option.bind_eq_bind, Option.bind_eq_some_iff] at hchain
      obtain ⟨keybox, -, first, -, leaf, hleaf, hchain⟩ := hchain
      cases hchain
      rw [List.map_cons, List.head?_cons, Option.bind_some, hcarries _ leaf hleaf] at hkey
      exact Option.some.inj hkey

/-! ## Runs -/

/-- For each alias without underscore the interceptor still has the parameters of the last `generateKey` and
the pair made since, and no other key was reported. -/
structure Tracked (s : LegacyKeys) (k : Key) (g : KeyGeneration) : Prop where
  parameters : ∀ kgp, g.parameters = some kgp →
    (s.interceptor.keyArguments.lookup k).map KeyGenParameters.unchallenged = some kgp.unchallenged
  made : ∀ m ∈ g.made, s.interceptor.keyPairs.lookup k = some m.2 ∧
    g.parameters.map KeyGenParameters.unchallenged = some m.1.unchallenged
  reported : ∀ key ∈ g.reported, ∃ m ∈ g.made, m.2.publicKey = key

theorem Tracked.kept {k : Key} {g : KeyGeneration} (h : s.Tracked k g) : g.Kept := by
  refine ⟨fun key hkey key' hkey' => ?_, fun key hkey => ?_⟩
  · obtain ⟨m, hm, rfl⟩ := h.reported key hkey
    obtain ⟨m', hm', rfl⟩ := h.reported key' hkey'
    have hsame : some m.2 = some m'.2 := (h.made m hm).1.symm.trans (h.made m' hm').1
    rw [Option.some.inj hsame]
  · obtain ⟨m, hm, rfl⟩ := h.reported key hkey
    exact ⟨m, hm, rfl, (h.made m hm).2⟩

/-- The entries of the key after the call. -/
theorem next_lookup (P : Platform) (certificateKey : Bytes → Option Bytes) (s : LegacyKeys) (c : LegacyCall) :
    (s.next P certificateKey c).interceptor.keyArguments.lookup c.key =
        (s.stored c).or (s.interceptor.keyArguments.lookup c.key) ∧
      (s.next P certificateKey c).interceptor.keyPairs.lookup c.key =
        ((s.made c).map Prod.snd).or (s.interceptor.keyPairs.lookup c.key) := by
  obtain ⟨hargs, hpairs⟩ := s.interceptor.next_maps P c
  simp only [next, hargs, hpairs, stored, ← made_keyPairs]
  constructor
  · cases (if s.interceptor.taken c then s.interceptor.written c else none) with
    | none => rfl
    | some kgp => exact AList.lookup_insert _
  · cases (if s.interceptor.taken c then s.interceptor.made c else none) with
    | none => rfl
    | some kp => exact AList.lookup_insert _

theorem Tracked.generateKey (halias : c.key = c.client) :
    (s.next P certificateKey c).Tracked c.client { parameters := s.stored c } := by
  refine ⟨fun kgp hkgp => ?_, fun m hm => absurd hm (by simp), fun key hkey => absurd hkey (by simp)⟩
  have hstored : s.stored c = some kgp := hkgp
  rw [← halias, (next_lookup P certificateKey s c).1, hstored]
  rfl

theorem Tracked.other {g : KeyGeneration} (h : s.Tracked c.client g) (hcode : c.code ≠ .generateKey)
    (halias : c.key = c.client) (hcarries : CarriesKey certificateKey c.env)
    (hmade : s.made c ≠ none → g.parameters ≠ none ∧ g.made = []) (hattested : s.attested c ≠ none → g.made ≠ []) :
    (s.next P certificateKey c).Tracked c.client
      { g with made := g.made ++ (s.made c).toList, reported := g.reported ++ s.reported P certificateKey c } := by
  obtain ⟨hargs, hpairs⟩ := next_lookup P certificateKey s c
  rw [halias] at hargs hpairs
  refine ⟨fun kgp hkgp => ?_, fun m hm => ?_, fun key hkey => ?_⟩
  · rw [hargs]
    cases hstored : s.stored c with
    | none => exact h.parameters kgp hkgp
    | some kgp' =>
      have hunchallenged := stored_unchallenged hcode hstored
      rw [halias] at hunchallenged
      exact hunchallenged.symm.trans (h.parameters kgp hkgp)
  · rw [hpairs]
    rcases List.mem_append.1 hm with hold | hnew
    · cases hnone : s.made c with
      | none => exact h.made m hold
      | some m' =>
        have hempty := (hmade (by rw [hnone]; simp)).2
        rw [hempty] at hold
        exact absurd hold (by simp)
    · have hm := Option.mem_toList.1 hnew
      obtain ⟨kgp, hkgp⟩ := Option.ne_none_iff_exists'.1 (hmade (by rw [hm]; simp)).1
      have hlookup := (made_eq_some.1 hm).2.1
      have hparameters := h.parameters kgp hkgp
      rw [← halias, hlookup] at hparameters
      rw [hm, hkgp]
      exact ⟨rfl, hparameters.symm⟩
  · rcases List.mem_append.1 hkey with hold | hnew
    · obtain ⟨m, hm, hm'⟩ := h.reported key hold
      exact ⟨m, List.mem_append_left _ hm, hm'⟩
    · rcases mem_reported hcarries hnew with ⟨m, hm, rfl⟩ | ⟨kp, hkp, rfl⟩
      · exact ⟨m, List.mem_append_right _ (Option.mem_toList.2 hm), rfl⟩
      · obtain ⟨m, hm⟩ := List.exists_mem_of_ne_nil _ (hattested (by rw [hkp]; simp))
        have hlookup : s.interceptor.keyPairs.lookup c.client = some kp := halias ▸ lookup_of_attested hkp
        refine ⟨m, List.mem_append_left _ hm, ?_⟩
        rw [Option.some.inj ((h.made m hm).1.symm.trans hlookup)]

/-- Every alias is tracked. -/
def AllTracked (s : LegacyKeys) : Prop := ∀ k g, s.generation k = some g → s.Tracked k g

theorem AllTracked.next (h : s.AllTracked) (halias : '_' ∉ c.name.toList)
    (hcarries : CarriesKey certificateKey c.env) (honce : s.MadeOnce c) :
    (s.next P certificateKey c).AllTracked := by
  intro k g hg
  have hkey := LegacyCall.key_eq_client halias
  by_cases hk : k = c.client
  · subst hk
    simp only [LegacyKeys.next, Function.update_self] at hg
    split_ifs at hg with hcode
    · cases hg
      exact Tracked.generateKey hkey
    · obtain ⟨g₀, hg₀, rfl⟩ := Option.map_eq_some_iff.1 hg
      unfold MadeOnce at honce
      rw [hg₀] at honce
      exact (h _ g₀ hg₀).other hcode hkey hcarries honce.1 honce.2
  · have hold : s.generation k = some g := by
      simpa only [LegacyKeys.next, Function.update_of_ne hk] using hg
    obtain ⟨hargs, hpairs⟩ := @KeystoreInterceptor.next_lookup_ne P s.interceptor c k (hkey ▸ hk)
    obtain ⟨hparameters, hmade, hreported⟩ := h k g hold
    exact ⟨hargs ▸ hparameters, hpairs ▸ hmade, hreported⟩

end LegacyKeys

/-- In every state of a run of calls about aliases without underscore, in which a pair is made once for the
parameters of each `generateKey` and no leaf is asked for before, the replies since the last `generateKey`
of an alias carry one public key, made with its parameters. -/
theorem legacyKeys_kept {P : Platform} {certificateKey : Bytes → Option Bytes} {shared : Daemon}
    {calls : List LegacyCall} (halias : ∀ c ∈ calls, '_' ∉ c.name.toList)
    (hcarries : ∀ c ∈ calls, CarriesKey certificateKey c.env)
    (honce : Machine.AllSteps (LegacyKeys.next P certificateKey) LegacyKeys.MadeOnce (.start shared) calls)
    (before : List LegacyCall) (hbefore : before <+: calls) (k : Key) (g : KeyGeneration)
    (hg : (Machine.run (LegacyKeys.next P certificateKey) (.start shared) before).generation k = some g) :
    g.Kept := by
  obtain ⟨after, rfl⟩ := hbefore
  have hsteps : Machine.AllSteps (LegacyKeys.next P certificateKey)
      (fun s c => ('_' ∉ c.name.toList ∧ CarriesKey certificateKey c.env) ∧ s.MadeOnce c)
      (.start shared) before := by
    intro cs₁ c cs₂ hcs
    have hmem : c ∈ before ++ after := by simp [hcs]
    exact ⟨⟨halias c hmem, hcarries c hmem⟩, honce.take cs₁ c cs₂ hcs⟩
  have htracked : (Machine.run (LegacyKeys.next P certificateKey) (.start shared) before).AllTracked := by
    refine hsteps.invariant (fun _ _ h => nomatch h) fun s c h hP => ?_
    exact h.next hP.1.1 hP.1.2 hP.2
  exact (htracked k g hg).kept

namespace Demo

/-- Surroundings that draw the pair `n`, and where a certificate is the key that it carries. -/
def drawing (n : UInt8) : Env :=
  { env 0 with
    generateKeyPair := fun _ => some ⟨[n], [n]⟩
    buildCertificate := fun request => some ⟨request.keyPair.publicKey⟩ }

/-- A call of the owner about its key "a". -/
def callOf (code : LegacyTransaction) (n : UInt8) : LegacyCall :=
  { callingUid := owner, name := "a", code, env := drawing n, x := x509,
    arguments := some [⟨Tag.ALGORITHM, .int Algorithm.EC⟩] }

/-- What has become of the key "a" after the calls. -/
def generationAfter (calls : List LegacyCall) : Option KeyGeneration :=
  (Machine.run (LegacyKeys.next platform some) (.start (legacy .GENERATE .AUTO).shared) calls).generation ⟨owner, "a"⟩

end Demo

open Demo

/-- One export and one leaf. -/
theorem legacyKeys_kept_exported_once : ∃ g,
    generationAfter [callOf .generateKey 1, callOf .exportKey 2, callOf .attestKey 3] = some g ∧
      g.reported = [[2], [2]] ∧ g.Kept := by
  have honce : Machine.AllSteps (LegacyKeys.next platform some) LegacyKeys.MadeOnce
      (.start (legacy .GENERATE .AUTO).shared)
      [callOf .generateKey 1, callOf .exportKey 2, callOf .attestKey 3] :=
    Machine.allSteps_cons (by decide) (Machine.allSteps_cons (by decide)
      (Machine.allSteps_cons (by decide) Machine.allSteps_nil))
  have hcarries : ∀ c ∈ [callOf .generateKey 1, callOf .exportKey 2, callOf .attestKey 3],
      CarriesKey some c.env := by
    intro c hc request leaf hleaf
    simp only [List.mem_cons, List.not_mem_nil, or_false] at hc
    rcases hc with rfl | rfl | rfl <;> cases hleaf <;> rfl
  refine ⟨_, rfl, by decide, ?_⟩
  exact legacyKeys_kept (by decide) hcarries honce _ (List.prefix_refl _) ⟨owner, "a"⟩ _ rfl

/-- A second export makes another pair, and after a new `generateKey` a leaf carries the old key. -/
theorem legacyKeys_exported_twice :
    (∃ g, generationAfter [callOf .generateKey 1, callOf .exportKey 2, callOf .exportKey 3] = some g ∧
      g.reported = [[2], [3]] ∧ ¬g.Kept) ∧
    ∃ g, generationAfter [callOf .generateKey 1, callOf .exportKey 2, callOf .generateKey 3, callOf .attestKey 4,
        callOf .exportKey 5] = some g ∧ g.reported = [[2], [5]] ∧ ¬g.Kept :=
  ⟨⟨_, rfl, by decide, by decide⟩, _, rfl, by decide, by decide⟩

end TrickyStore
