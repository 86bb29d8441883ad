import TrickyStore.Proof.ReadPaths
import TrickyStore.Proof.Transparency

/-!
# Listing and reading a forged key

`listEntries` adds the forged keys of every targeted caller; `getKeyEntry` answers from a forged key
by the mode of the caller, and from every forged key when the caller is not targeted.
-/

open Lib

namespace TrickyStore

open CertificateAliasCache

/-- The aliases of the listing that an answer delivers. -/
def Answer.aliases : Answer → List String
  | .fromHook (.descriptors ds) _ => ds.filterMap KeyDescriptor.keyAlias
  | .fromHook .. => []
  | .fromKeystore _ reply =>
    ((reply.bind Parcel.readException).bind Daemon.readDescriptors).getD [] |>.filterMap
      fun e => e.bind KeyDescriptor.keyAlias

section Agree

variable (pm : PackageManager) (d : Daemon) (k : Key)

/-- A successful listing past the alias, of which the real keystore lists `ds`. -/
structure Exchange.ListsPast (uid : Int) (startPastAlias : Option String)
    (ds : List (Option KeyDescriptor)) (x : Exchange) : Prop where
  uid : x.uid = uid
  request : x.request = .listEntries 0 startPastAlias
  packageManager : x.preEnv.packageManager = pm ∧ x.postEnv.packageManager = pm
  resultCode : x.resultCode = 0
  reply : (x.reply.bind Parcel.readException).bind Daemon.readDescriptors = some ds

/-- A successful listing by the owner of `k`, whose alias the real keystore does not list. -/
structure Exchange.Lists (x : Exchange) : Prop where
  uid : x.uid = k.uid
  request : x.request = .listEntries 0 none
  packageManager : x.preEnv.packageManager = pm ∧ x.postEnv.packageManager = pm
  resultCode : x.resultCode = 0
  reply : ∃ ds, (x.reply.bind Parcel.readException).bind Daemon.readDescriptors = some ds ∧
    k.keyAlias ∉ ds.filterMap fun e => e.bind KeyDescriptor.keyAlias

/-- A read by the owner of `k`, which the real keystore does not know. -/
structure Exchange.ReadsAlias (x : Exchange) : Prop where
  uid : x.uid = k.uid
  request : ∃ desc, x.request = .getKeyEntry (some desc) ∧ desc.keyAlias = some k.keyAlias ∧
    (desc.nspace = 0 ∨ d.UnusedId desc.nspace)
  packageManager : x.preEnv.packageManager = pm
  notFound : x.reply.bind Parcel.readException = none

/-- The alias is listed exactly if it can be read. -/
def ListingAgrees (P : Platform) (x y : Exchange) : Prop :=
  k.keyAlias ∈ (d.serve P x).2.aliases ↔ (d.serve P y).2.certificates.isSome = true

/-- The mode of the owner lists the forged key and serves it: `!`, or `?` with an entry that the
leaf-hack branch looks at. -/
structure Daemon.ServesForged : Prop where
  targeted : d.config.needHack pm k.uid = true ∨ d.config.needGenerate pm k.uid = true
  notPlainAuto : d.NotPlainAuto pm k.uid
  notTracked : d.passthrough.isTracked k = false
  served : d.config.needGenerate pm k.uid = true ∨ d.cache.skipLeafHacks.lookup k = some true ∨
    d.cache.patchedResponses.containsKey k = true

end Agree

/-! ## The listing -/

namespace Daemon

variable {P : Platform} {pm : PackageManager} {d : Daemon} {k : Key} {x : Exchange}

/-- The descriptors that a merged page delivers, when there are aliases to add. -/
def mergedDescriptors (uid : Int) (startPastAlias : Option String)
    (ds : List (Option KeyDescriptor)) (d : Daemon) : List KeyDescriptor :=
  let toAdd := d.aliasesToAdd uid startPastAlias (ds.filterMap fun e => e.bind KeyDescriptor.keyAlias)
  (ds.filterMap id ++ toAdd.map fun a => ({ domain := 0, nspace := uid, keyAlias := some a } :
    KeyDescriptor)).mergeSort fun x y => stringLe (x.keyAlias.getD "") (y.keyAlias.getD "")

/-- The aliases of a page of which the real keystore lists `ds`. -/
def mergedAliases (uid : Int) (startPastAlias : Option String) (ds : List (Option KeyDescriptor))
    (d : Daemon) : List String :=
  let existing := ds.filterMap fun e => e.bind KeyDescriptor.keyAlias
  if (d.aliasesToAdd uid startPastAlias existing).isEmpty then existing
  else (d.mergedDescriptors uid startPastAlias ds).filterMap KeyDescriptor.keyAlias

theorem filterMap_descriptors (uid : Int) (ds : List (Option KeyDescriptor)) (as : List String) :
    (ds.filterMap id ++ as.map fun a => ({ domain := 0, nspace := uid, keyAlias := some a } :
      KeyDescriptor)).filterMap KeyDescriptor.keyAlias =
        (ds.filterMap fun e => e.bind KeyDescriptor.keyAlias) ++ as := by
  rw [List.filterMap_append, List.filterMap_filterMap, List.filterMap_map]
  congr 1
  exact List.filterMap_some

theorem mergedAliases_perm (uid : Int) (startPastAlias : Option String)
    (ds : List (Option KeyDescriptor)) :
    (d.mergedAliases uid startPastAlias ds).Perm
      ((ds.filterMap fun e => e.bind KeyDescriptor.keyAlias) ++
        d.aliasesToAdd uid startPastAlias (ds.filterMap fun e => e.bind KeyDescriptor.keyAlias)) := by
  unfold mergedAliases
  dsimp only
  split_ifs with hempty
  · rw [List.isEmpty_iff.1 hempty, List.append_nil]
  · rw [← filterMap_descriptors uid]
    exact (List.mergeSort_perm _ _).filterMap _

theorem mem_mergedAliases {uid : Int} {startPastAlias : Option String}
    {ds : List (Option KeyDescriptor)} {a : String} :
    a ∈ d.mergedAliases uid startPastAlias ds ↔
      (a ∈ ds.filterMap fun e => e.bind KeyDescriptor.keyAlias) ∨
        d.cache.keys.containsKey ⟨uid, a⟩ = true ∧
          (startPastAlias.any fun s => stringLe a s) = false := by
  rw [(mergedAliases_perm uid startPastAlias ds).mem_iff, List.mem_append, mem_aliasesToAdd]
  exact or_and_left.trans (and_iff_left (em _))

/-- A listing by a targeted caller is the merged page. -/
theorem serve_listEntries {uid : Int} {startPastAlias : Option String}
    {ds : List (Option KeyDescriptor)} (hx : x.ListsPast pm uid startPastAlias ds)
    (hkeyboxes : d.hasKeyboxes = true)
    (htargeted : d.config.needHack pm uid = true ∨ d.config.needGenerate pm uid = true) :
    (d.serve P x).1 = ((d.checked x.preEnv uid).tick.checked x.postEnv uid).tick ∧
      (d.serve P x).2.aliases = d.mergedAliases uid startPastAlias ds := by
  obtain ⟨p, hreply, hp⟩ := Option.bind_eq_some_iff.1 (by rw [← Option.bind_assoc]; exact hx.reply)
  obtain ⟨hpre, hpost⟩ := hx.packageManager
  have hneed {d' : Daemon} {env : Env} (henv : env.packageManager = pm)
      (hconfig : ∀ u, d'.config.needHack pm u = d.config.needHack pm u ∧
        d'.config.needGenerate pm u = d.config.needGenerate pm u) :
      (d'.needGenerate env uid || d'.needHack env uid) = true := by
    rw [needGenerate, needHack, henv, (hconfig _).1, (hconfig _).2]
    simpa using htargeted.symm
  have hpreHook : x.preHook P d = ((d.checked x.preEnv uid).tick, .Continue) := by
    simp only [Exchange.preHook, Daemon.pre, hx.request, hx.uid, onPreTransact, preListEntries,
      hkeyboxes, if_true, hneed hpre fun _ => ⟨rfl, rfl⟩]
  have hchecked (u : Int) : (d.checked x.preEnv uid).tick.config.needHack pm u =
      d.config.needHack pm u ∧ (d.checked x.preEnv uid).tick.config.needGenerate pm u =
        d.config.needGenerate pm u := by
    subst hpre
    exact ⟨PkgConfig.checked_needHack u, PkgConfig.checked_needGenerate u⟩
  have hboxes : (d.checked x.preEnv uid).tick.hasKeyboxes = true := hkeyboxes
  have hpostHook : x.postHook P (d.checked x.preEnv uid).tick =
      (((d.checked x.preEnv uid).tick.checked x.postEnv uid).tick,
        (d.checked x.preEnv uid).tick.mergeListEntries uid 0 startPastAlias 0 p) := by
    simp only [Exchange.postHook, Daemon.post, hx.request, hx.uid, hreply, hx.resultCode,
      onPostTransact, postListEntries, hboxes, if_true, hneed hpost hchecked]
  have hcontinue : (x.preHook P d).2 = .Continue := by rw [hpreHook]
  refine ⟨by rw [serve_of_continue hcontinue, hpreHook, hpostHook], ?_⟩
  unfold mergedAliases
  dsimp only
  cases hempty : (d.aliasesToAdd uid startPastAlias
      (ds.filterMap fun e => e.bind KeyDescriptor.keyAlias)).isEmpty with
  | true =>
    have hskip : (x.postHook P (x.preHook P d).1).2 = .Skip := by
      rw [hpreHook, hpostHook]
      simp only [mergeListEntries, ne_eq, not_true_eq_false, or_self, if_false, hp]
      exact if_pos hempty
    rw [serve_of_kept hcontinue hskip, if_pos rfl, Answer.aliases, hx.reply]
    rfl
  | false =>
    have hmerged : (x.postHook P (x.preHook P d).1).2 =
        .OverrideReply 0 (.descriptors (d.mergedDescriptors uid startPastAlias ds)) none := by
      rw [hpreHook, hpostHook]
      simp only [mergeListEntries, ne_eq, not_true_eq_false, or_self, if_false, hp]
      exact if_neg (Bool.eq_false_iff.1 hempty)
    rw [serve_of_replaced hcontinue hmerged, if_neg Bool.false_ne_true]
    rfl

/-- The listing of a targeted caller has its forged keys. -/
theorem mem_aliases_of_targeted (hx : x.Lists pm k) (hkeyboxes : d.hasKeyboxes = true)
    (hk : d.cache.keys.containsKey k = true)
    (htargeted : d.config.needHack pm k.uid = true ∨ d.config.needGenerate pm k.uid = true) :
    k.keyAlias ∈ (d.serve P x).2.aliases := by
  obtain ⟨ds, hds, -⟩ := hx.reply
  have hlists : x.ListsPast pm k.uid none ds :=
    ⟨hx.uid, hx.request, hx.packageManager, hx.resultCode, hds⟩
  rw [(serve_listEntries hlists hkeyboxes htargeted).2, mem_mergedAliases]
  exact .inr ⟨hk, rfl⟩

/-- The listing of any other caller is the real keystore's. -/
theorem not_mem_aliases_of_not_targeted (hx : x.Lists pm k)
    (htargeted : ¬ (d.config.needHack pm k.uid = true ∨ d.config.needGenerate pm k.uid = true)) :
    k.keyAlias ∉ (d.serve P x).2.aliases := by
  obtain ⟨ds, hds, hnew⟩ := hx.reply
  have hskip : (x.preHook P d).2 = .Skip := by
    simp only [not_or, Bool.not_eq_true] at htargeted
    simp only [Exchange.preHook, Daemon.pre, hx.request, onPreTransact, preListEntries, needGenerate,
      needHack, hx.packageManager.1, hx.uid, htargeted, Bool.or_self, Bool.false_eq_true, if_false]
    split_ifs <;> rfl
  rw [serve_of_skip hskip, Answer.aliases, hds]
  exact hnew

/-! ## The read -/

variable {y : Exchange}

theorem certificates_of_read {r : KeyEntryResponse} {origin : Option Origin} {code : Int}
    (h : (y.preHook P d).2 = .OverrideReply code (.entry r) origin) :
    (d.serve P y).2.certificates.isSome = true := by
  rw [serve_of_override h]
  rfl

/-- A caller that is not targeted is served every forged key. -/
theorem reads_of_not_targeted (hy : y.ReadsAlias pm d k) (hkeyboxes : d.hasKeyboxes = true)
    (hk : d.cache.keys.containsKey k = true)
    (htargeted : ¬ (d.config.needHack pm k.uid = true ∨ d.config.needGenerate pm k.uid = true)) :
    (d.serve P y).2.certificates.isSome = true := by
  obtain ⟨desc, hrequest, ha, hn⟩ := hy.request
  have hmeans := onlyMeans_byAlias ha hn
  obtain ⟨i, hi⟩ := HashMap.containsKey_eq_true.1 hk
  have hcached : (d.checked y.preEnv k.uid).cachedOwner k.uid desc = some (k, i.response) := by
    have hfound : d.cache.findGeneratedOwner k.uid desc = some (k, i) := by
      rw [show d.cache.findGeneratedOwner k.uid desc = _ from findSome?_of_only hmeans.resolves _, hi]
      rfl
    show ((d.cache.findGeneratedOwner k.uid desc).map _).or _ = _
    rw [hfound]
    rfl
  simp only [not_or, Bool.not_eq_true] at htargeted
  have hhack : (d.checked y.preEnv k.uid).needHack y.preEnv k.uid = false := by
    rw [needHack, checked, PkgConfig.checked_needHack, hy.packageManager]
    exact htargeted.1
  have hserved : (y.preHook P d).2 = .typedObjectReply k i.response := by
    simp only [Exchange.preHook, Daemon.pre, hrequest, onPreTransact, hy.uid, preGetKeyEntry,
      hkeyboxes, if_true, hmeans.grant, preGetKeyEntryByMode, needGenerate, hy.packageManager,
      htargeted.2, hhack, Bool.false_eq_true, if_false, hcached]
    rfl
  exact certificates_of_read hserved

/-- What the real keystore does not know, and the pre-hook does not answer, cannot be read. -/
theorem not_read (hy : y.ReadsAlias pm d k)
    (h : (y.preHook P d).2 = .Skip ∨ (y.preHook P d).2 = .Continue) :
    (d.serve P y).2.certificates = none := by
  obtain ⟨desc, hrequest, -⟩ := hy.request
  rcases h with h | h
  · rw [serve_of_skip h]
    simp only [Answer.certificates, hy.notFound, Option.bind_none]
  · exact certificates_of_notFound hrequest h hy.notFound

/-- A targeted caller is forwarded for a tracked key, and in plain AUTO mode for any key. -/
theorem not_read_of_forwarded (hy : y.ReadsAlias pm d k) (hkeyboxes : d.hasKeyboxes = true)
    (htargeted : d.config.needHack pm k.uid = true ∨ d.config.needGenerate pm k.uid = true)
    (h : d.passthrough.isTracked k = true ∨ ¬ d.NotPlainAuto pm k.uid) :
    (d.serve P y).2.certificates = none := by
  refine not_read hy (.inr ?_)
  obtain ⟨desc, hrequest, ha, hn⟩ := hy.request
  have hmeans := onlyMeans_byAlias ha hn
  simp only [Exchange.preHook, Daemon.pre, hrequest, onPreTransact, hy.uid, preGetKeyEntry, hkeyboxes,
    if_true, hmeans.grant]
  rcases h with htracked | hplain
  · have hpass : (d.checked y.preEnv k.uid).isPassthroughDescriptor k.uid desc = true :=
      hmeans.tracked.trans htracked
    have hhack (hgenerate : ¬ d.needGenerate y.preEnv k.uid = true) :
        (d.checked y.preEnv k.uid).needHack y.preEnv k.uid = true := by
      rw [needGenerate, hy.packageManager] at hgenerate
      rw [needHack, checked, PkgConfig.checked_needHack, hy.packageManager]
      exact htargeted.resolve_right hgenerate
    simp only [preGetKeyEntryByMode, hpass, if_true]
    split_ifs with hgenerate hneed
    · rfl
    · rfl
    · exact absurd (hhack hgenerate) hneed
  · unfold NotPlainAuto at hplain
    push Not at hplain
    obtain ⟨ps, hps, hauto⟩ := hplain
    exact preGetKeyEntryByMode_of_packages (hy.packageManager ▸ hps) (Bool.ne_false_iff.1 hauto)

theorem ownerRead_isSome (hk : d.cache.keys.containsKey k = true) :
    (d.ownerRead pm k).isSome = true ↔
      d.config.needGenerate pm k.uid = true ∨ d.cache.skipLeafHacks.lookup k = some true ∨
        d.cache.patchedResponses.containsKey k = true := by
  obtain ⟨i, hi⟩ := HashMap.containsKey_eq_true.1 hk
  unfold ownerRead cachedResponse
  rw [hi]
  split_ifs with hgenerate hskip
  · simp [hgenerate]
  · have hflag : d.cache.skipLeafHacks.lookup k = some true := by
      cases hb : d.cache.skipLeafHacks.lookup k with
      | none => simp [hb] at hskip
      | some b => simpa [hb] using hskip
    simp [hflag]
  · have hflag : d.cache.skipLeafHacks.lookup k ≠ some true := by
      intro hb
      simp [hb] at hskip
    simp [hgenerate, hflag, HashMap.containsKey]

/-- Any other targeted caller reads what `ownerRead` finds. -/
theorem read_of_targeted (hy : y.ReadsAlias pm d k) (hkeyboxes : d.hasKeyboxes = true)
    (hk : d.cache.keys.containsKey k = true)
    (htargeted : d.config.needHack pm k.uid = true ∨ d.config.needGenerate pm k.uid = true)
    (htracked : d.passthrough.isTracked k = false) (hplain : d.NotPlainAuto pm k.uid) :
    (d.serve P y).2.certificates.isSome = true ↔
      d.config.needGenerate pm k.uid = true ∨ d.cache.skipLeafHacks.lookup k = some true ∨
        d.cache.patchedResponses.containsKey k = true := by
  obtain ⟨desc, hrequest, ha, hn⟩ := hy.request
  have hmeans := onlyMeans_byAlias ha hn
  have hpre : (y.preHook P d).2 = serveCached ((d.ownerRead pm k).map fun r => (k, r))
      (if d.config.needGenerate pm k.uid then .Skip else .Continue) := by
    obtain rfl := hy.packageManager
    simp only [Exchange.preHook, pre, hrequest, onPreTransact, hy.uid]
    exact preGetKeyEntry_owner hkeyboxes hmeans htracked htargeted hplain
  rw [← ownerRead_isSome hk]
  cases hr : d.ownerRead pm k with
  | some r =>
    rw [hr] at hpre
    simp only [Option.isSome_some, iff_true]
    exact certificates_of_read hpre
  | none =>
    have hforward : (y.preHook P d).2 = .Skip ∨ (y.preHook P d).2 = .Continue := by
      rw [hpre, hr, Option.map_none, serveCached]
      split_ifs
      · exact .inl rfl
      · exact .inr rfl
    rw [not_read hy hforward]
    rfl

end Daemon

/-- A forged key is listed exactly if it can be read, if and only if its owner's mode serves it: a
caller that is not targeted reads but does not list, one in plain AUTO mode lists but does not read.  The
mode is the one that the daemon has resolved. -/
theorem listingAgrees_iff_servesForged (P : Platform) (pm : PackageManager) (d : Daemon) (k : Key)
    (x y : Exchange) (hkeyboxes : d.hasKeyboxes = true) (hk : d.cache.keys.containsKey k = true)
    (hx : x.Lists pm k) (hy : y.ReadsAlias pm d k) :
    ListingAgrees d k P x y ↔ d.ServesForged pm k := by
  unfold ListingAgrees
  by_cases htargeted :
    d.config.needHack pm k.uid = true ∨ d.config.needGenerate pm k.uid = true
  · simp only [Daemon.mem_aliases_of_targeted hx hkeyboxes hk htargeted, true_iff]
    constructor
    · intro hread
      have hforwarded (h : d.passthrough.isTracked k = true ∨ ¬ d.NotPlainAuto pm k.uid) : False := by
        rw [Daemon.not_read_of_forwarded hy hkeyboxes htargeted h] at hread
        cases hread
      have htracked : d.passthrough.isTracked k = false := by
        by_contra h
        exact hforwarded (.inl (Bool.not_eq_false _ ▸ h))
      have hplain : d.NotPlainAuto pm k.uid := by
        by_contra h
        exact hforwarded (.inr h)
      exact ⟨htargeted, hplain, htracked,
        (Daemon.read_of_targeted hy hkeyboxes hk htargeted htracked hplain).1 hread⟩
    · intro h
      exact (Daemon.read_of_targeted hy hkeyboxes hk htargeted h.notTracked h.notPlainAuto).2 h.served
  · simp only [Daemon.not_mem_aliases_of_not_targeted hx htargeted,
      Daemon.reads_of_not_targeted hy hkeyboxes hk htargeted, false_iff, not_true_eq_false]
    exact fun h => htargeted h.targeted

namespace Demo

/-- The owner lists its aliases; the real keystore has none. -/
def listing : Exchange :=
  { uid := owner, request := .listEntries 0 none, preEnv := env 7, postEnv := env 8
    reply := some [.int 0, .descriptors []] }

/-- The owner reads the alias, which the real keystore does not know. -/
def readingUnknown : Exchange :=
  { uid := owner, request := .getKeyEntry (some byAlias), preEnv := env 9, postEnv := env 10
    reply := some (Parcel.exception (-8) []) }

theorem listing_lists : listing.Lists packageManager key :=
  ⟨rfl, rfl, ⟨rfl, rfl⟩, rfl, [], rfl, by simp⟩

theorem readingUnknown_readsAlias (d : Daemon) : readingUnknown.ReadsAlias packageManager d key :=
  ⟨rfl, ⟨byAlias, rfl, rfl, .inl rfl⟩, rfl, rfl⟩

end Demo

open Demo in
theorem listingAgrees_in_generate_mode :
    ListingAgrees (World.run platform {} (forgedByOwner .AUTO)).daemon key platform listing readingUnknown ↔
      (World.run platform {} (forgedByOwner .AUTO)).daemon.ServesForged packageManager key :=
  listingAgrees_iff_servesForged platform packageManager _ key listing readingUnknown (by decide)
    (by decide) listing_lists (readingUnknown_readsAlias _)

open Demo in
/-- In plain AUTO mode a key forged before is listed, but its entry is not served. -/
theorem plainAuto_lists_unreadable_key :
    ¬ ∀ (P : Platform) (history : List Event) (pm : PackageManager) (k : Key) (x y : Exchange),
      let d := (World.run P {} history).daemon
      d.hasKeyboxes = true → d.cache.keys.containsKey k = true → x.Lists pm k →
        y.ReadsAlias pm d k → ListingAgrees d k P x y := by
  intro h
  have hagrees := h platform (forgedByOwner .AUTO ++ [.targetChanged (modes .AUTO .AUTO)]) packageManager
    key listing readingUnknown (by decide) (by decide) listing_lists (readingUnknown_readsAlias _)
  have hlisted := Daemon.mem_aliases_of_targeted (P := platform) listing_lists
    (d := (World.run platform {} (forgedByOwner .AUTO ++ [.targetChanged (modes .AUTO .AUTO)])).daemon)
    (by decide) (by decide) (.inl (by decide))
  exact absurd (hagrees.1 hlisted) (by decide)

end TrickyStore
