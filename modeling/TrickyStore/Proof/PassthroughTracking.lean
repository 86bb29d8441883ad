import TrickyStore.Proof.Sequential

/-!
# Rejected requests and passthrough tracking

`deleteKey` drops the tracking of the alias in its pre-hook, before the real keystore has answered,
and `updateSubcomponent` drops it in its post-hook after any transaction whose status is zero; an
error of the service travels inside the reply of such a transaction.
-/

open Lib

namespace TrickyStore

open CertificateAliasCache

/-- The real keystore rejects the request: the transaction succeeds and its reply holds an
exception. -/
def Exchange.Rejected (x : Exchange) : Prop :=
  x.resultCode = 0 ∧ ∃ p : Parcel, x.reply = some p ∧ p.readException = none

/-- A `deleteKey` or an `updateSubcomponent` with the descriptor. -/
def Request.MutatesKey (request : Request) (desc : KeyDescriptor) : Prop :=
  request = .deleteKey (some desc) ∨
    ∃ publicCert certificateChain,
      request = .updateSubcomponent (some desc) publicCert certificateChain

/-- The descriptor names the key, by its alias or by an id under which it is known. -/
def Daemon.NamesTracked (d : Daemon) (uid : Int) (desc : KeyDescriptor) (k : Key) : Prop :=
  k.uid = uid ∧ (desc.keyAlias = some k.keyAlias ∨ desc.nspace ≠ 0 ∧
    (d.passthrough.byNspace.lookup desc.nspace = some k ∨
      d.cache.keysByNspace.lookup desc.nspace = some k))

/-- Every alias and id that stood for the tracked key still does. -/
def Daemon.TrackingKept (d d' : Daemon) (k : Key) : Prop :=
  ∀ keyAlias nspace, d.passthrough.resolve k.uid keyAlias nspace = some k →
    d'.passthrough.resolve k.uid keyAlias nspace = some k

/-! ## Lookups in the registry -/

namespace PassthroughKeyRegistry

variable {r : PassthroughKeyRegistry} {k k' : Key} {uid n : Int} {a : Option String}

theorem resolve_eq_some :
    r.resolve uid a n = some k ↔
      (n ≠ 0 ∧ r.byNspace.lookup n = some k ∧ k.uid = uid ∧ r.isTracked k = true) ∨
        (¬ (n ≠ 0 ∧ ∃ k₁, r.byNspace.lookup n = some k₁ ∧ k₁.uid = uid ∧ r.isTracked k₁ = true) ∧
          (∃ b, a = some b ∧ k = ⟨uid, b⟩) ∧ r.isTracked k = true) := by
  have hid : (if n ≠ 0 then (r.byNspace.lookup n).filter fun k => k.uid = uid && r.isTracked k
      else none) = none ↔
        ¬ (n ≠ 0 ∧ ∃ k₁, r.byNspace.lookup n = some k₁ ∧ k₁.uid = uid ∧ r.isTracked k₁ = true) := by
    by_cases hn : n = 0
    · simp [hn]
    · simp [hn, Option.filter_eq_none_iff]
  unfold resolve
  rw [Option.or_eq_some_iff, hid, Option.filter_eq_some_iff, Option.map_eq_some_iff]
  refine or_congr ?_ (and_congr_right fun _ => and_congr_left fun _ => ?_)
  · by_cases hn : n = 0
    · simp [hn]
    · simp [hn, Option.filter_eq_some_iff]
  · simp only [eq_comm]

theorem isTracked_of_resolve (h : r.resolve uid a n = some k) : r.isTracked k = true := by
  rcases resolve_eq_some.1 h with ⟨-, -, -, h⟩ | ⟨-, -, h⟩ <;> exact h

/-- What stands for a key still does when another key is removed. -/
theorem resolve_remove (h : r.resolve uid a n = some k) (hk : k ≠ k') :
    (r.remove k').resolve uid a n = some k := by
  have hlookup (m : Int) (k₁ : Key) :
      (r.remove k').byNspace.lookup m = some k₁ ↔ r.byNspace.lookup m = some k₁ ∧ k₁ ≠ k' := by
    simp only [remove, HashMap.lookup_removeIf_eq_some, decide_eq_false_iff_not, ne_eq]
  rw [resolve_eq_some] at h ⊢
  rcases h with ⟨hn, hlook, huid, htracked⟩ | ⟨hnone, ha, htracked⟩
  · exact .inl ⟨hn, (hlookup n k).2 ⟨hlook, hk⟩, huid, isTracked_remove_iff.2 ⟨hk, htracked⟩⟩
  · refine .inr ⟨?_, ha, isTracked_remove_iff.2 ⟨hk, htracked⟩⟩
    rintro ⟨hn, k₁, hlook, huid, htracked₁⟩
    obtain ⟨hlook, hk₁⟩ := (hlookup n k₁).1 hlook
    exact hnone ⟨hn, k₁, hlook, huid, (isTracked_remove_iff.1 htracked₁).2⟩

end PassthroughKeyRegistry

/-! ## The two requests -/

namespace Daemon

variable {P : Platform} {d d' : Daemon} {x : Exchange} {desc : KeyDescriptor} {k : Key} {uid : Int}
  {cert chain : Option Bytes}

theorem preDeleteKey_ne_skip : (d.preDeleteKey uid (some desc)).2 ≠ .Skip := by
  unfold preDeleteKey Result.successReply
  dsimp only
  repeat' split
  all_goals simp

theorem preUpdateSubcomponent_ne_skip :
    (d.preUpdateSubcomponent uid (some desc) cert chain).2 ≠ .Skip := by
  have houtcome := preUpdateSubcomponent_outcome uid d desc cert chain
  generalize d.preUpdateSubcomponent uid (some desc) cert chain = outcome at houtcome ⊢
  cases houtcome <;> simp [Result.successReply, Result.errorReply]

/-- Both requests reach their post-hook when they are forwarded. -/
theorem continues_of_mutatesKey (hrequest : x.request.MutatesKey desc)
    (hforward : x.isForwarded P d = true) : (x.preHook P d).2 = .Continue := by
  refine (Exchange.isForwarded_eq_true.1 hforward).resolve_left ?_
  rcases hrequest with h | ⟨cert, chain, h⟩
  · simpa only [Exchange.preHook, Daemon.pre, h, onPreTransact] using preDeleteKey_ne_skip
  · simpa only [Exchange.preHook, Daemon.pre, h, onPreTransact] using preUpdateSubcomponent_ne_skip

/-- A forwarded `deleteKey` ends without the tracking of its alias. -/
theorem serve_deleteKey_passthrough (hrequest : x.request = .deleteKey (some desc))
    (hcont : (x.preHook P d).2 = .Continue) (hrejected : x.Rejected) :
    (d.serve P x).1.passthrough = match desc.keyAlias with
      | some a => (d.passthrough.remove ⟨x.uid, a⟩).remove ⟨x.uid, a⟩
      | none => d.passthrough := by
  obtain ⟨hcode, p, hreply, -⟩ := hrejected
  rw [serve_of_continue hcont]
  simp only [Exchange.postHook, Exchange.preHook, Daemon.post, Daemon.pre, hrequest, hreply,
    onPreTransact, onPostTransact, preDeleteKey, postDeleteKey, Option.bind_some, hcode]
  cases desc.keyAlias <;> rfl

theorem ownKey_clear {c : CertificateAliasCache} {a : String} {n : Int}
    (h : c.ownKey uid n = none ∨ c.ownKey uid n = some ⟨uid, a⟩) :
    (c.clear ⟨uid, a⟩).ownKey uid n = none := by
  rw [Option.eq_none_iff_forall_ne_some]
  intro k hk
  obtain ⟨hlookup, huid⟩ := ownKey_eq_some.1 hk
  obtain ⟨hlookup, hne, -⟩ := clear_keysByNspace_eq_some.1 hlookup
  have hown := ownKey_eq_some.2 ⟨hlookup, huid⟩
  rcases h with h | h
  · rw [h] at hown
    cases hown
  · exact hne (Option.some.inj (hown.symm.trans h))

/-- Without an alias in the descriptor, the pre-hook leaves no id under which the post-hook would find
one. -/
theorem findAliasForNspace_preUpdateSubcomponent (halias : desc.keyAlias = none)
    (hn : desc.nspace ≠ 0)
    (hcont : (d.preUpdateSubcomponent uid (some desc) cert chain).2 = .Continue) :
    (d.preUpdateSubcomponent uid (some desc) cert chain).1.cache.findAliasForNspace uid
      desc.nspace = none := by
  have hresolve : d.cache.resolveKey uid desc = d.cache.ownKey uid desc.nspace := by
    simp [resolveKey, halias, hn]
  have houtcome := preUpdateSubcomponent_outcome uid d desc cert chain
  generalize d.preUpdateSubcomponent uid (some desc) cert chain = outcome at houtcome hcont ⊢
  cases houtcome with
  | refused => cases hcont
  | untouched htarget =>
    rw [findAliasForNspace, Option.map_eq_none_iff]
    unfold updateTarget at htarget
    rw [hresolve] at htarget
    split at htarget
    · cases htarget
    · next hown => exact hown
  | updated => cases hcont
  | cleared key htarget =>
    rw [findAliasForNspace, Option.map_eq_none_iff]
    refine ownKey_clear ?_
    unfold updateTarget at htarget
    rw [hresolve] at htarget
    split at htarget
    · next k hown =>
      obtain rfl : k = key := by simpa using htarget
      obtain ⟨-, huid⟩ := ownKey_eq_some.1 hown
      exact .inr (hown.trans (by rw [← huid]))
    · next hown => exact .inl hown

theorem preUpdateSubcomponent_passthrough :
    (d.preUpdateSubcomponent uid (some desc) cert chain).1.passthrough = d.passthrough := by
  have houtcome := preUpdateSubcomponent_outcome uid d desc cert chain
  generalize d.preUpdateSubcomponent uid (some desc) cert chain = outcome at houtcome ⊢
  cases houtcome <;> rfl

/-- A forwarded `updateSubcomponent` ends without the tracking of its alias, too. -/
theorem serve_updateSubcomponent_passthrough
    (hrequest : x.request = .updateSubcomponent (some desc) cert chain)
    (hcont : (x.preHook P d).2 = .Continue) (hrejected : x.Rejected)
    (hnamed : desc.keyAlias = none → desc.nspace ≠ 0) :
    (d.serve P x).1.passthrough = match desc.keyAlias with
      | some a => d.passthrough.remove ⟨x.uid, a⟩
      | none => d.passthrough := by
  obtain ⟨hcode, p, hreply, -⟩ := hrejected
  rw [serve_of_continue hcont]
  have hpre : x.preHook P d = ((d.preUpdateSubcomponent x.uid (some desc) cert chain).1.tick,
      (d.preUpdateSubcomponent x.uid (some desc) cert chain).2) := Exchange.preHook_of_request d hrequest
  rw [hpre] at hcont ⊢
  simp only [Exchange.postHook, Daemon.post, hrequest, hreply, onPostTransact,
    postUpdateSubcomponent, hcode]
  have hpassthrough : (d.preUpdateSubcomponent x.uid (some desc) cert chain).1.passthrough =
      d.passthrough := preUpdateSubcomponent_passthrough
  cases halias : desc.keyAlias with
  | some a =>
    show (d.preUpdateSubcomponent x.uid (some desc) cert chain).1.passthrough.remove _ = _
    rw [hpassthrough]
  | none =>
    have hfind := findAliasForNspace_preUpdateSubcomponent halias (hnamed halias) hcont
    have htick : (d.preUpdateSubcomponent x.uid (some desc) cert chain).1.tick.cache =
        (d.preUpdateSubcomponent x.uid (some desc) cert chain).1.cache := rfl
    rw [htick, hfind]
    exact hpassthrough

end Daemon

/-- A rejected request leaves the tracking of the key alone exactly if it does not carry the alias of
the key: one that names the key by its id is followed by no clean-up of the registry. -/
theorem trackingKept_iff_not_by_alias (P : Platform) (d : Daemon) (x : Exchange)
    (desc : KeyDescriptor) (k : Key) (htracked : d.passthrough.isTracked k = true)
    (hnames : d.NamesTracked x.uid desc k) (hrequest : x.request.MutatesKey desc)
    (hforward : x.isForwarded P d = true) (hrejected : x.Rejected) :
    d.TrackingKept (d.serve P x).1 k ↔ desc.keyAlias ≠ some k.keyAlias := by
  have hcont := Daemon.continues_of_mutatesKey hrequest hforward
  obtain ⟨huid, hnamed⟩ := hnames
  have hkey : desc.keyAlias ≠ some k.keyAlias → ∀ a, desc.keyAlias = some a → k ≠ ⟨x.uid, a⟩ := by
    rintro hne a ha rfl
    exact hne ha
  have hid (halias : desc.keyAlias = none) : desc.nspace ≠ 0 := by
    rcases hnamed with h | ⟨hn, -⟩
    · rw [halias] at h
      cases h
    · exact hn
  -- the alias of the key resolves to it before the request
  have hbefore : d.passthrough.resolve k.uid (some k.keyAlias) 0 = some k :=
    PassthroughKeyRegistry.resolve_eq_some.2 (.inr ⟨by simp, ⟨_, rfl, rfl⟩, htracked⟩)
  constructor
  · intro hkept halias
    have hafter := PassthroughKeyRegistry.isTracked_of_resolve (hkept _ _ hbefore)
    have hk : (⟨x.uid, k.keyAlias⟩ : Key) = k := by rw [← huid]
    rcases hrequest with h | ⟨cert, chain, h⟩
    · rw [Daemon.serve_deleteKey_passthrough h hcont hrejected, halias] at hafter
      dsimp only at hafter
      rw [hk] at hafter
      exact absurd rfl (PassthroughKeyRegistry.isTracked_remove_iff.1 hafter).1
    · rw [Daemon.serve_updateSubcomponent_passthrough h hcont hrejected hid, halias] at hafter
      dsimp only at hafter
      rw [hk] at hafter
      exact absurd rfl (PassthroughKeyRegistry.isTracked_remove_iff.1 hafter).1
  · intro hne keyAlias nspace hresolve
    rcases hrequest with h | ⟨cert, chain, h⟩
    · rw [Daemon.serve_deleteKey_passthrough h hcont hrejected]
      cases halias : desc.keyAlias with
      | none => exact hresolve
      | some a =>
        have hka := hkey hne a halias
        exact PassthroughKeyRegistry.resolve_remove
          (PassthroughKeyRegistry.resolve_remove hresolve hka) hka
    · rw [Daemon.serve_updateSubcomponent_passthrough h hcont hrejected hid]
      cases halias : desc.keyAlias with
      | none => exact hresolve
      | some a => exact PassthroughKeyRegistry.resolve_remove hresolve (hkey hne a halias)

namespace Demo

/-- In AUTO mode the real keystore makes the key 9 for the alias. -/
def promoted : List Event :=
  start .AUTO .AUTO ++ [.arrive 1 owner (generate ecParams) (env 5),
    .complete 1 0 (some (created 9 (some [10]))) (env 6)]

/-- The real keystore rejects the request. -/
def rejecting (request : Request) : Exchange :=
  { uid := owner, request := request, preEnv := env 7, postEnv := env 8
    reply := some (Parcel.exception (-8) []) }

theorem rejecting_rejected {request : Request} : (rejecting request).Rejected :=
  ⟨rfl, _, rfl, rfl⟩

end Demo

open Demo in
theorem trackingKept_deleteKey_by_id :
    (World.run platform {} promoted).daemon.TrackingKept
        ((World.run platform {} promoted).daemon.serve platform
          (rejecting (.deleteKey (some (byId 9))))).1 key ↔ (byId 9).keyAlias ≠ some key.keyAlias :=
  trackingKept_iff_not_by_alias platform _ (rejecting (.deleteKey (some (byId 9)))) (byId 9) key
    (by decide) ⟨rfl, .inr ⟨by decide, .inl (by decide)⟩⟩ (.inl rfl) (by decide) rejecting_rejected

open Demo in
/-- The pre-hook of `deleteKey` drops the tracking before the real keystore says no. -/
theorem rejected_deleteKey_drops_tracking :
    ¬ ∀ (P : Platform) (history : List Event) (x : Exchange) (desc : KeyDescriptor) (k : Key),
      let d := (World.run P {} history).daemon
      d.passthrough.isTracked k = true → d.NamesTracked x.uid desc k → x.request.MutatesKey desc →
        x.isForwarded P d = true → x.Rejected → d.TrackingKept (d.serve P x).1 k := by
  intro h
  have hkept := h platform promoted (rejecting (.deleteKey (some byAlias))) byAlias key (by decide)
    ⟨rfl, .inl rfl⟩ (.inl rfl) (by decide) rejecting_rejected
  exact absurd (hkept (some "a") 0 (by decide)) (by decide)

end TrickyStore
