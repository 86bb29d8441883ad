import TrickyStore.Lib.Cursor
import TrickyStore.Proof.ListingAgreement

/-!
# Listing page by page

`listEntriesBatched` is called with the last alias of the page before.  The hook merges all forged
aliases past that one into the real keystore's page, so that the first page may end far beyond what
the real keystore has listed by then.
-/

open Lib Lib.Cursor

namespace TrickyStore

/-! ## The order of aliases -/

/-- The code units of a character. -/
def utf16Char (c : Char) : List ℕ :=
  if c.toNat < 0x10000 then [c.toNat]
  else [0xD800 + (c.toNat - 0x10000) / 0x400, 0xDC00 + (c.toNat - 0x10000) % 0x400]

theorem utf16Char_ne_nil (c : Char) : utf16Char c ≠ [] := by
  unfold utf16Char
  split_ifs <;> simp

/-- No character's code units begin those of another: half of a surrogate pair is no character. -/
theorem utf16Char_cancel {c c' : Char} {s t : List ℕ} (h : utf16Char c ++ s = utf16Char c' ++ t) :
    c = c' ∧ s = t := by
  have hc : c.toNat < 0xD800 ∨ 0xDFFF < c.toNat ∧ c.toNat < 0x110000 := c.valid
  have hc' : c'.toNat < 0xD800 ∨ 0xDFFF < c'.toNat ∧ c'.toNat < 0x110000 := c'.valid
  have heq (hn : c.toNat = c'.toNat) : c = c' := Char.toNat_inj.1 hn
  unfold utf16Char at h
  split_ifs at h
  all_goals
    simp only [List.cons_append, List.nil_append, List.cons.injEq] at h
    obtain ⟨h₁, h₂⟩ := h
  · exact ⟨heq h₁, h₂⟩
  · omega
  · omega
  · exact ⟨heq (by omega), h₂.2⟩

theorem flatMap_utf16Char_injective {l l' : List Char}
    (h : l.flatMap utf16Char = l'.flatMap utf16Char) : l = l' := by
  induction l generalizing l' with
  | nil =>
    cases l' with
    | nil => rfl
    | cons c' l' =>
      have hnil : utf16Char c' = [] := (List.append_eq_nil_iff.1 h.symm).1
      exact absurd hnil (utf16Char_ne_nil c')
  | cons c l ih =>
    cases l' with
    | nil =>
      have hnil : utf16Char c = [] := (List.append_eq_nil_iff.1 h).1
      exact absurd hnil (utf16Char_ne_nil c)
    | cons c' l' =>
      obtain ⟨rfl, htail⟩ := utf16Char_cancel h
      rw [ih htail]

theorem utf16Units_injective : Function.Injective utf16Units := fun _ _ h =>
  String.toList_inj.1 (flatMap_utf16Char_injective h)

/-- An alias, in the order by which the merge sorts. -/
@[ext] structure Alias where
  name : String

namespace Alias

instance : LinearOrder Alias :=
  LinearOrder.lift' (fun a => utf16Units a.name) fun _ _ h => Alias.ext (utf16Units_injective h)

theorem stringLe_eq (a b : Alias) : stringLe a.name b.name = decide (a ≤ b) := rfl

@[simp] theorem mem_map_mk {l : List String} {a : Alias} : a ∈ l.map Alias.mk ↔ a.name ∈ l := by
  rw [List.mem_map]
  exact ⟨fun ⟨_, hs, ha⟩ => ha ▸ hs, fun h => ⟨a.name, h, rfl⟩⟩

theorem not_stringLe_iff_past {cursor : Option Alias} {a : Alias} :
    ((cursor.map name).any fun s => stringLe a.name s) = false ↔ Past cursor a := by
  cases cursor with
  | none => exact iff_of_true rfl (past_none a)
  | some s =>
    rw [past_some, Option.map_some, Option.any_some, stringLe_eq, decide_eq_false_iff_not, not_le]

end Alias

/-! ## The client -/

/-- The aliases forged for the uid. -/
def Daemon.forgedAliases (uid : Int) (d : Daemon) : Finset Alias :=
  ((d.aliasesToAdd uid none []).map Alias.mk).toFinset

/-- The `i`-th call past the alias `c` is `x i c`, to which the real keystore, whose aliases for the
uid are `R`, answers with the page `pages i c`. -/
structure ListsPages (pm : PackageManager) (uid : Int) (R : Finset Alias)
    (x : ℕ → Option Alias → Exchange) (pages : ℕ → Option Alias → List Alias) : Prop where
  lists : ∀ i c, ∃ ds : List KeyDescriptor,
    (x i c).ListsPast pm uid (c.map Alias.name) (ds.map some) ∧
      ds.map KeyDescriptor.keyAlias = (pages i c).map fun a => some a.name
  page : ∀ i c, IsPage R c (pages i c)

/-- What the client reads of its calls. -/
def listingServer (P : Platform) (x : ℕ → Option Alias → Exchange) : Server (ℕ × Daemon) Alias :=
  fun s c => ((s.2.serve P (x s.1 c)).2.aliases.map Alias.mk,
    (s.1 + 1, (s.2.serve P (x s.1 c)).1))

namespace Daemon

variable {P : Platform} {pm : PackageManager} {d : Daemon} {uid : Int}

theorem mem_forgedAliases {a : Alias} :
    a ∈ d.forgedAliases uid ↔ d.cache.keys.containsKey ⟨uid, a.name⟩ = true := by
  rw [forgedAliases, List.mem_toFinset, Alias.mem_map_mk, mem_aliasesToAdd]
  exact ⟨fun h => h.1.1, fun h => ⟨⟨h, rfl⟩, List.not_mem_nil⟩⟩

/-- Every descriptor of the page has its alias. -/
theorem existing_eq {ds : List KeyDescriptor} {page : List Alias}
    (hds : ds.map KeyDescriptor.keyAlias = page.map fun a => some a.name) :
    ((ds.map some).filterMap fun e => e.bind KeyDescriptor.keyAlias) = page.map Alias.name := by
  have hcomp : ds.filterMap KeyDescriptor.keyAlias =
      (ds.map KeyDescriptor.keyAlias).filterMap id := by rw [List.filterMap_map]; rfl
  rw [List.filterMap_map]
  show ds.filterMap KeyDescriptor.keyAlias = _
  rw [hcomp, hds, List.filterMap_map]
  exact congrFun List.filterMap_eq_map' page

theorem aliasesToAdd_nodup {startPastAlias : Option String} {existing : List String} :
    (d.aliasesToAdd uid startPastAlias existing).Nodup := by
  have hkeys : (d.cache.keys.entries.map Sigma.fst).Nodup := d.cache.keys.nodupKeys
  refine List.Nodup.filter _ ((hkeys.filter _).map_on fun k hk k' hk' halias => ?_)
  have huid : k.uid = k'.uid :=
    (of_decide_eq_true (List.mem_filter.1 hk).2).trans (of_decide_eq_true (List.mem_filter.1 hk').2).symm
  cases k
  cases k'
  exact congrArg₂ Key.mk huid halias

/-- The keystore's page and the added aliases are in ascending order after the merge. -/
theorem mergedAliases_sorted {c : Option String} {ds : List KeyDescriptor} {page : List Alias}
    (hds : ds.map KeyDescriptor.keyAlias = page.map fun a => some a.name)
    (hpage : page.Pairwise (· < ·)) :
    ((d.mergedAliases uid c (ds.map some)).map Alias.mk).Pairwise (· < ·) := by
  have hexisting := existing_eq hds
  have hnodup : (d.mergedAliases uid c (ds.map some)).Nodup := by
    have hpages : page.Nodup := hpage.imp fun h => ne_of_lt h
    have hnames : (page.map Alias.name).Nodup := hpages.map fun _ _ h => Alias.ext h
    rw [(mergedAliases_perm uid c (ds.map some)).nodup_iff, hexisting]
    refine List.nodup_append.2 ⟨hnames, aliasesToAdd_nodup, fun a ha b hb hab => ?_⟩
    exact (mem_aliasesToAdd.1 hb).2 (hab ▸ ha)
  have hle : (d.mergedAliases uid c (ds.map some)).Pairwise fun a b => stringLe a b = true := by
    unfold mergedAliases
    dsimp only
    split_ifs
    · rw [hexisting, List.pairwise_map]
      exact hpage.imp fun h => decide_eq_true h.le
    · refine List.pairwise_filterMap.2 ?_
      have hsorted : (d.mergedDescriptors uid c (ds.map some)).Pairwise fun x y =>
          stringLe (x.keyAlias.getD "") (y.keyAlias.getD "") = true :=
        List.pairwise_mergeSort
          (fun x y z hxy hyz => decide_eq_true ((of_decide_eq_true hxy).trans (of_decide_eq_true hyz)))
          (fun x y => by simpa [stringLe] using le_total _ _) _
      refine hsorted.imp fun h a ha b hb => ?_
      rw [ha, hb] at h
      exact h
  rw [List.pairwise_map]
  refine (hle.and hnodup).imp fun ⟨hle, hne⟩ => ?_
  exact lt_of_le_of_ne (of_decide_eq_true hle) fun h => hne (congrArg Alias.name h)

/-- The state that the client's calls keep. -/
structure ListsLike (pm : PackageManager) (uid : Int) (d d' : Daemon) : Prop where
  keys : d'.cache.keys = d.cache.keys
  keyboxes : d'.keyboxes = d.keyboxes
  needHack : d'.config.needHack pm uid = d.config.needHack pm uid
  needGenerate : d'.config.needGenerate pm uid = d.config.needGenerate pm uid

theorem ListsLike.checked {d' : Daemon} {env : Env} (h : ListsLike pm uid d d')
    (henv : env.packageManager = pm) : ListsLike pm uid d (d'.checked env uid).tick := by
  subst henv
  exact ⟨h.keys, h.keyboxes, (PkgConfig.checked_needHack uid).trans h.needHack,
    (PkgConfig.checked_needGenerate uid).trans h.needGenerate⟩

/-- With keyboxes loaded, the client's calls are those of a server that merges the forged aliases into
the pages of the real keystore. -/
theorem merges_listing {R : Finset Alias} {x : ℕ → Option Alias → Exchange}
    {pages : ℕ → Option Alias → List Alias} (hx : ListsPages pm uid R x pages)
    (hkeyboxes : d.hasKeyboxes = true)
    (htargeted : d.config.needHack pm uid = true ∨ d.config.needGenerate pm uid = true) :
    Merges (listingServer P x) R (d.forgedAliases uid) (fun s => ListsLike pm uid d s.2)
      (fun s c => pages s.1 c) := by
  have hserve (s : ℕ × Daemon) (c : Option Alias) (hs : ListsLike pm uid d s.2) :
      ∃ ds : List KeyDescriptor, ds.map KeyDescriptor.keyAlias =
          ((pages s.1 c).map fun a => some a.name) ∧
        (listingServer P x s c).1 =
          (s.2.mergedAliases uid (c.map Alias.name) (ds.map some)).map Alias.mk ∧
        ListsLike pm uid d (listingServer P x s c).2.2 := by
    obtain ⟨ds, hlists, hds⟩ := hx.lists s.1 c
    have hboxes : s.2.hasKeyboxes = true := by rw [hasKeyboxes, hs.keyboxes]; exact hkeyboxes
    have htargeted' : s.2.config.needHack pm uid = true ∨ s.2.config.needGenerate pm uid = true := by
      rw [hs.needHack, hs.needGenerate]
      exact htargeted
    obtain ⟨hstate, haliases⟩ := serve_listEntries (P := P) hlists hboxes htargeted'
    refine ⟨ds, hds, congrArg (List.map Alias.mk) haliases, ?_⟩
    show ListsLike pm uid d (s.2.serve P (x s.1 c)).1
    rw [hstate]
    exact (hs.checked hlists.packageManager.1).checked hlists.packageManager.2
  constructor
  · intro s c hs
    obtain ⟨ds, -, -, hlike⟩ := hserve s c hs
    exact hlike
  · exact fun s c _ => hx.page s.1 c
  · intro s c hs
    obtain ⟨ds, hds, haliases, -⟩ := hserve s c hs
    rw [haliases]
    exact mergedAliases_sorted hds (hx.page s.1 c).sorted
  · intro s c hs a
    obtain ⟨ds, hds, haliases, -⟩ := hserve s c hs
    rw [haliases, Alias.mem_map_mk, mem_mergedAliases, existing_eq hds, Alias.not_stringLe_iff_past,
      mem_forgedAliases, hs.keys]
    refine or_congr_left ?_
    rw [List.mem_map]
    exact ⟨fun ⟨b, hb, hab⟩ => Alias.ext hab ▸ hb, fun ha => ⟨a, ha, rfl⟩⟩

/-- Without keyboxes, the calls are the real keystore's. -/
theorem merges_unmerged {R : Finset Alias} {x : ℕ → Option Alias → Exchange}
    {pages : ℕ → Option Alias → List Alias} (hx : ListsPages pm uid R x pages) :
    Merges (listingServer P x) R ∅ (fun s => s.2.hasKeyboxes = false) (fun s c => pages s.1 c) := by
  have hserve (s : ℕ × Daemon) (c : Option Alias) (hs : s.2.hasKeyboxes = false) :
      (listingServer P x s c).1 = pages s.1 c ∧ (listingServer P x s c).2.2.hasKeyboxes = false := by
    obtain ⟨ds, hlists, hds⟩ := hx.lists s.1 c
    have hpre : (x s.1 c).preHook P s.2 = (s.2.tick, .Skip) := by
      simp only [Exchange.preHook, Daemon.pre, hlists.request, onPreTransact, preListEntries, hs,
        Bool.false_eq_true, if_false]
    have hskip : ((x s.1 c).preHook P s.2).2 = .Skip := by rw [hpre]
    unfold listingServer
    rw [serve_of_skip hskip, hpre]
    refine ⟨?_, hs⟩
    dsimp only
    rw [Answer.aliases, hlists.reply, Option.getD_some, existing_eq hds, List.map_map]
    exact List.map_id' _
  constructor
  · exact fun s c hs => (hserve s c hs).2
  · exact fun s c _ => hx.page s.1 c
  · intro s c hs
    rw [(hserve s c hs).1]
    exact (hx.page s.1 c).sorted
  · intro s c hs a
    rw [(hserve s c hs).1]
    simp

end Daemon

/-- The greatest forged alias ends the first page: the client reads every alias once and in order
exactly if no real alias below it, that is not forged too, is left for a later page.  Without keyboxes
it reads the real aliases only.  The uid is targeted as the daemon has resolved it. -/
theorem listingComplete_iff (P : Platform) (pm : PackageManager) (d : Daemon) (uid : Int)
    (R : Finset Alias) (x : ℕ → Option Alias → Exchange) (pages : ℕ → Option Alias → List Alias)
    (htargeted : d.config.needHack pm uid = true ∨ d.config.needGenerate pm uid = true)
    (hx : ListsPages pm uid R x pages) :
    Complete (listingServer P x) R (d.forgedAliases uid) (0, d) ↔
      if d.hasKeyboxes then
        ∀ r ∈ R, (∃ f ∈ d.forgedAliases uid, r < f) → r ∈ pages 0 none ∨ r ∈ d.forgedAliases uid
      else d.forgedAliases uid ⊆ R := by
  by_cases hkeyboxes : d.hasKeyboxes = true
  · rw [if_pos hkeyboxes]
    exact (Daemon.merges_listing hx hkeyboxes htargeted).complete_iff
      (s := (0, d)) ⟨rfl, rfl, rfl, rfl⟩
  · rw [if_neg hkeyboxes]
    rw [Bool.not_eq_true] at hkeyboxes
    obtain ⟨out, hwalk, hsorted, hmem⟩ := ((Daemon.merges_unmerged (P := P) hx).complete_iff
      (s := (0, d)) hkeyboxes).2 fun r _ ⟨f, hf, _⟩ => absurd hf (Finset.notMem_empty f)
    have hout (a : Alias) : a ∈ out ↔ a ∈ R := (hmem a).trans (or_iff_left (Finset.notMem_empty a))
    constructor
    · rintro ⟨out', hwalk', -, hmem'⟩ a ha
      obtain rfl := hwalk.unique hwalk'
      exact (hout a).1 ((hmem' a).2 (.inr ha))
    · intro hsub
      refine ⟨out, hwalk, hsorted, fun a => ?_⟩
      rw [hout]
      exact (or_iff_left_of_imp fun ha => hsub ha).symm

namespace Demo

/-- The owner's call past the alias, to which the real keystore answers with one of its aliases. -/
def listingPast (aliases : List Alias) (c : Option Alias) : Exchange :=
  { uid := owner, request := .listEntries 0 (c.map Alias.name), preEnv := env 7, postEnv := env 8
    reply := some [.int 0, .descriptors ((((aliases.filter fun a => Past c a).take 1).map fun a =>
      { nspace := owner, keyAlias := some a.name }).map some)] }

theorem listingPast_listsPages {aliases : List Alias} (h : aliases.Pairwise (· < ·)) :
    ListsPages packageManager owner aliases.toFinset (fun _ => listingPast aliases)
      fun _ c => (aliases.filter fun a => Past c a).take 1 := by
  refine ⟨fun i c => ⟨_, ⟨rfl, rfl, ⟨rfl, rfl⟩, rfl, rfl⟩, ?_⟩, fun i c => isPage_take h c 0⟩
  rw [List.map_map]
  rfl

/-- The owner forges "m" in `!` mode. -/
def forgesMiddle : List Event :=
  start .GENERATE .AUTO ++
    [.arrive 1 owner (.generateKey .trustedEnvironment (some { keyAlias := some "m" }) none
      (some ecParams)) (env 5)]

end Demo

open Demo in
/-- The real keystore lists "x", then "y", and the hook puts "m" before them. -/
theorem listingComplete_of_two_pages :
    Complete (listingServer platform fun _ => listingPast [⟨"x"⟩, ⟨"y"⟩]) [⟨"x"⟩, ⟨"y"⟩].toFinset
      ((World.run platform {} forgesMiddle).daemon.forgedAliases owner)
      (0, (World.run platform {} forgesMiddle).daemon) := by
  refine (listingComplete_iff platform packageManager _ owner _ _ _ (.inr (by decide))
    (listingPast_listsPages (by decide))).2 ?_
  rw [if_pos (by decide)]
  rintro r hr ⟨f, hf, hlt⟩
  have hforged : (World.run platform {} forgesMiddle).daemon.aliasesToAdd owner none [] = ["m"] := by decide
  rw [Daemon.forgedAliases, hforged] at hf
  obtain rfl : f = ⟨"m"⟩ := by simpa using hf
  have hbehind : ∀ r ∈ ([⟨"x"⟩, ⟨"y"⟩] : List Alias), ¬ r < ⟨"m"⟩ := by decide
  exact absurd hlt (hbehind r (List.mem_toFinset.1 hr))

open Demo in
/-- The real keystore lists "a", then "b"; the hook puts "m" on the first page, and "b" is skipped. -/
theorem listing_skips_real_key :
    ¬ ∀ (P : Platform) (history : List Event) (pm : PackageManager) (uid : Int) (R : Finset Alias)
      (x : ℕ → Option Alias → Exchange) (pages : ℕ → Option Alias → List Alias),
      let d := (World.run P {} history).daemon
      (d.config.needHack pm uid = true ∨ d.config.needGenerate pm uid = true) →
        ListsPages pm uid R x pages →
          Complete (listingServer P x) R (d.forgedAliases uid) (0, d) := by
  intro h
  have hsorted : ([⟨"a"⟩, ⟨"b"⟩] : List Alias).Pairwise (· < ·) := by decide
  have hpages := listingPast_listsPages hsorted
  have hcomplete := h platform forgesMiddle packageManager owner _ _ _ (.inr (by decide)) hpages
  have hforged {a : Alias} : a ∈ (World.run platform {} forgesMiddle).daemon.forgedAliases owner ↔
      (World.run platform {} forgesMiddle).daemon.cache.keys.containsKey ⟨owner, a.name⟩ = true :=
    Daemon.mem_forgedAliases
  rcases ((Daemon.merges_listing hpages (by decide) (.inr (by decide))).complete_iff
    (s := (0, (World.run platform {} forgesMiddle).daemon)) ⟨rfl, rfl, rfl, rfl⟩).1 hcomplete ⟨"b"⟩
      (by decide) ⟨⟨"m"⟩, hforged.2 (by decide), by decide⟩ with hlisted | hlisted
  · exact absurd hlisted (by decide)
  · exact absurd (hforged.1 hlisted) (by decide)

end TrickyStore
