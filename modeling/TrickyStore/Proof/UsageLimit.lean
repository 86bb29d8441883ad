import Mathlib.Algebra.BigOperators.Group.List.Basic
import TrickyStore.Proof.Entries

/-!
# The usage limit of a forged key

A generation of a key is its entry in `keys`, known by the response object.  Its budget is the counter
in `usageRemaining`, or the limit while there is none.  A `finish` charges the counter of the key the
operation was created for, which is not always the key whose material it uses, and an operation
outlives its generation; while neither happens, passes and budget add up to the limit at most.
-/

open Lib

namespace TrickyStore

open CertificateAliasCache

namespace Daemon

variable (d : Daemon)

/-- How many `finish` calls on operations of the generation have got past `consumeUsage`. -/
def passes (o : Origin) : ℕ :=
  (d.operations.map fun op => if op.origin = o then op.passes else 0).sum

/-- What is left for the current generation of `k`. -/
def budget (k : Key) (info : Info) : Int :=
  (d.cache.usageRemaining.lookup k).getD info.params.usageCountLimit

/-- No generation with a limit has been used more often than the limit. -/
def WithinLimits : Prop :=
  ∀ op ∈ d.operations, 0 < op.usageCountLimit → (d.passes op.origin : Int) ≤ op.usageCountLimit

/-- The generations other than `o` have lost nothing of their budgets. -/
def KeepsOtherBudgets (o : Origin) (d' : Daemon) : Prop :=
  ∀ k info, d.cache.keys.lookup k = some info → o ≠ ⟨k, info.response.serial⟩ →
    d.budget k info ≤ d'.budget k info

end Daemon

namespace World

variable (w : World)

/-- A call on an operation leaves the budgets of other generations alone. -/
def OtherBudgetsKept : Event → Prop
  | .operate i call => ∀ op, w.daemon.operations[i]? = some op →
      w.daemon.KeepsOtherBudgets op.origin (w.daemon.operate i call)
  | _ => True

/-- An active operation with a limit that is finished, on an input that is not oversized, charges the key
whose material it uses, and that key has not been deleted or generated again since. -/
def ChargesOwnGeneration : Event → Prop
  | .operate i (.finish input _) => ∀ op, w.daemon.operations[i]? = some op → op.active = true →
      SoftwareOperationBinder.checkInput input = .ok () → 0 < op.usageCountLimit →
        op.usageKey = some op.origin.key ∧ ∃ info, w.daemon.cache.keys.lookup op.origin.key = some info ∧
          info.response.serial = op.origin.serial
  | _ => True

end World

/-- The events of one session of the daemon. -/
def Event.inSession : Event → Prop
  | .restart | .loadPersistedKeys .. => False
  | _ => True

/-! ## Calls on an operation -/

namespace SoftwareOperationBinder

variable {op : SoftwareOperationBinder} {u : HashMap Key Int}

variable (op u) in
/-- A call changes neither what an operation is for nor, unless it is a `finish` that passes, any
counter or the number of passes. -/
theorem call_cases (call : Call) :
    ((op.call u call).1.origin = op.origin ∧ (op.call u call).1.usageCountLimit = op.usageCountLimit) ∧
      (((op.call u call).1.passes = op.passes ∧
          ∀ k, (op.call u call).2.1.lookup k = u.lookup k) ∨
        ((op.call u call).1.passes = op.passes + 1 ∧ op.active = true ∧
          (∃ input engine, call = .finish input engine ∧ checkInput input = .ok ()) ∧
          ((op.usageKey = none ∨ op.usageCountLimit ≤ 0) ∧ (op.call u call).2.1 = u ∨
            ∃ k, op.usageKey = some k ∧ 0 < op.usageCountLimit ∧
              0 < (u.lookup k).getD op.usageCountLimit ∧
              (op.call u call).2.1 = u.insert k ((u.lookup k).getD op.usageCountLimit - 1)))) := by
  cases call with
  | update => exact ⟨⟨rfl, rfl⟩, .inl ⟨rfl, fun _ => rfl⟩⟩
  | abort => exact ⟨⟨rfl, rfl⟩, .inl ⟨rfl, fun _ => rfl⟩⟩
  | updateAad aadInput engine =>
    unfold SoftwareOperationBinder.call updateAad
    dsimp only
    repeat' split
    all_goals exact ⟨⟨rfl, rfl⟩, .inl ⟨rfl, fun _ => rfl⟩⟩
  | finish input engine =>
    unfold SoftwareOperationBinder.call finish
    dsimp only
    split
    · exact ⟨⟨rfl, rfl⟩, .inl ⟨rfl, fun _ => rfl⟩⟩
    · exact ⟨⟨rfl, rfl⟩, .inl ⟨rfl, fun _ => rfl⟩⟩
    · next hactive hinput =>
      have hactive : op.active = true := by
        by_contra h
        simp [checkActive, h] at hactive
      cases hkey : op.usageKey with
      | none =>
        have hconsume : op.consumeUsage u = (true, u) := by simp only [consumeUsage, hkey]
        rw [hconsume]
        exact ⟨⟨rfl, rfl⟩, .inr ⟨rfl, hactive, ⟨input, engine, rfl, hinput⟩, .inl ⟨.inl rfl, rfl⟩⟩⟩
      | some k =>
        simp only [consumeUsage, hkey]
        split_ifs with hlimit hcur
        · exact ⟨⟨rfl, rfl⟩, .inr ⟨rfl, hactive, ⟨input, engine, rfl, hinput⟩, .inl ⟨.inr hlimit, rfl⟩⟩⟩
        · -- a denial writes the counter back: there is one, for the limit is positive
          refine ⟨⟨rfl, rfl⟩, .inl ⟨rfl, fun k' => ?_⟩⟩
          rw [HashMap.lookup_insert_ite]
          split_ifs with hk
          · subst hk
            cases hlookup : u.lookup k' with
            | none =>
              rw [hlookup] at hcur
              exact absurd hcur hlimit
            | some n => rfl
          · rfl
        · exact ⟨⟨rfl, rfl⟩, .inr ⟨rfl, hactive, ⟨input, engine, rfl, hinput⟩,
            .inr ⟨k, rfl, by omega, by omega, rfl⟩⟩⟩

end SoftwareOperationBinder

/-! ## Hooks -/

/-- A generation after a hook is an old one with its counter, or a new one with a full budget. -/
theorem HookStep.generation {uid : Int} {request : Request} {now : ℕ} {ids : Int → Prop}
    {c c' : CertificateAliasCache} {p p' : PassthroughKeyRegistry} {k : Key} {info' : Info}
    (h : HookStep uid request now ids c p c' p') (hk : c'.keys.lookup k = some info') :
    (∃ info, c.keys.lookup k = some info ∧ info.response.serial = info'.response.serial ∧
        info.params = info'.params ∧ c'.usageRemaining.lookup k = c.usageRemaining.lookup k) ∨
      (info'.response.serial = now ∧ (0 < info'.params.usageCountLimit →
        c'.usageRemaining.lookup k = some info'.params.usageCountLimit)) := by
  have hclear {k' : Key} (h : (c.clear k').keys.lookup k = some info') :
      c.keys.lookup k = some info' ∧
        (c.clear k').usageRemaining.lookup k = c.usageRemaining.lookup k := by
    rw [clear_keys, HashMap.lookup_erase_eq_some] at h
    rw [clear_usageRemaining, HashMap.lookup_erase_ite, if_neg h.1]
    exact ⟨h.2, rfl⟩
  cases h with
  | unchanged | unskipped | regranted | granted | ungranted | resigned =>
    exact .inl ⟨info', hk, rfl, rfl, rfl⟩
  | cleared | relinquished =>
    exact .inl ⟨info', (hclear hk).1, rfl, rfl, (hclear hk).2⟩
  | patched | promoted =>
    simp only [storePatched, register_keys, register_usageRemaining] at hk ⊢
    exact .inl ⟨info', (hclear hk).1, rfl, rfl, (hclear hk).2⟩
  | generated a info pair chain n skip hserial =>
    rcases HashMap.lookup_insert_eq_some.1 hk with ⟨rfl, rfl⟩ | ⟨hne, hk⟩
    · refine .inr ⟨hserial, fun hlimit => ?_⟩
      simp only [storeGenerated, if_pos hlimit, AList.lookup_insert]
    · refine .inl ⟨info', (hclear hk).1, rfl, rfl, ?_⟩
      simp only [storeGenerated]
      split_ifs
      · rw [AList.lookup_insert_ne hne]
        exact (hclear hk).2
      · exact (hclear hk).2
  | updated k' =>
    rw [updateKeyCertChain_keys_lookup] at hk
    obtain ⟨info, hinfo, rfl⟩ := Option.map_eq_some_iff.1 hk
    refine .inl ⟨info, hinfo, ?_, ?_, rfl⟩ <;> split_ifs <;> rfl

namespace Daemon

variable {P : Platform} {env : Env} {uid : Int} {d : Daemon} {request : Request}

/-- What `createOperation` makes: an unused operation of a current generation, with its limit. -/
structure NewOperation (d : Daemon) (op : SoftwareOperationBinder) (info : Info) : Prop where
  passes : op.passes = 0
  lookup : d.cache.keys.lookup op.origin.key = some info
  serial : info.response.serial = op.origin.serial
  limit : op.usageCountLimit = info.params.usageCountLimit

variable (P env uid d) in
theorem preCreateOperation_new (kd : Option KeyDescriptor) (opParams : List KeyParameter)
    (force : Bool) :
    (d.preCreateOperation P env uid kd opParams force).1 = d ∨
      ∃ op info, d.NewOperation op info ∧ (d.preCreateOperation P env uid kd opParams force).1 =
        { d with operations := d.operations ++ [op] } := by
  unfold preCreateOperation
  split
  · exact .inl rfl
  · split
    · exact .inl rfl
    · next owner info hfound =>
      dsimp only
      repeat' split
      all_goals first | exact .inl rfl | skip
      next op hcreate =>
      obtain ⟨engine, rfl⟩ := SoftwareOperationBinder.create_eq_ok hcreate
      exact .inr ⟨_, info, ⟨rfl, (findGeneratedOwner_eq_some hfound).2, rfl, rfl⟩, rfl⟩

variable (P env uid d request) in
/-- The other pre-hooks make no operation. -/
theorem pre_operations :
    (d.pre P env uid request).1.operations = d.operations ∨
      ∃ op info, d.NewOperation op info ∧
        (d.pre P env uid request).1 = { d with operations := d.operations ++ [op] }.tick := by
  show (d.onPreTransact P env uid request).1.operations = _ ∨ ∃ op info, d.NewOperation op info ∧
    (d.onPreTransact P env uid request).1.tick = _
  cases request with
  | createOperation level kd opParams force =>
    rcases preCreateOperation_new P env uid d kd opParams force with h | ⟨op, info, hop, h⟩
    · exact .inl (by rw [onPreTransact, h])
    · exact .inr ⟨op, info, hop, by rw [onPreTransact, h]⟩
  | generateKey level kd ak params =>
    left
    have hd := checkGenerateKey_fst P env uid d kd ak params
    have hroute (d : Daemon) (r : KeygenRequest) :
        (d.routeGenerateKey P env level uid r).1.operations = d.operations := by
      unfold routeGenerateKey
      dsimp only
      repeat' split
      all_goals rfl
    unfold onPreTransact preGenerateKey
    dsimp only
    split <;> next h => rw [h] at hd; rcases hd with rfl | rfl <;> first | rfl | exact hroute _ _
  | _ => exact .inl (onPreTransact_kept P env uid d (by simp) (by simp)).2

theorem post_operations {resultCode : Int} {reply : Option Parcel} :
    (d.post P env uid request resultCode reply).1.operations = d.operations := by
  show (d.onPostTransact P env uid request resultCode reply).1.operations = _
  unfold onPostTransact postGenerateKey patchGenerateKeyReply postImportKey postDeleteKey
    postUpdateSubcomponent postGrant postGetKeyEntry patchLeaf postListEntries
  dsimp only
  repeat' split
  all_goals rfl

/-! ## The account of every generation -/

theorem passes_eq_zero {o : Origin} (h : ∀ op ∈ d.operations, op.origin ≠ o) : d.passes o = 0 := by
  unfold passes
  rw [List.sum_eq_zero]
  intro n hn
  obtain ⟨op, hop, rfl⟩ := List.mem_map.1 hn
  exact if_neg (h op hop)

/-- Operations know their limit, and passes and budget of a current generation add up to its limit at
most. -/
structure Accounted (d : Daemon) : Prop where
  timed : d.Timed
  old : ∀ op ∈ d.operations, op.origin.serial < d.clock
  limit : ∀ op ∈ d.operations, ∀ info, d.cache.keys.lookup op.origin.key = some info →
    info.response.serial = op.origin.serial → op.usageCountLimit = info.params.usageCountLimit
  sameLimit : ∀ op ∈ d.operations, ∀ op' ∈ d.operations, op.origin = op'.origin →
    op.usageCountLimit = op'.usageCountLimit
  current : ∀ k info, d.cache.keys.lookup k = some info → 0 < info.params.usageCountLimit →
    0 ≤ d.budget k info ∧
      d.passes ⟨k, info.response.serial⟩ + d.budget k info ≤ info.params.usageCountLimit
  within : d.WithinLimits

namespace Accounted

variable {d' : Daemon}

/-- The accounts of a state that differs from an accounted one by a hook without new operation. -/
theorem hook {ids : Int → Prop} (h : d.Accounted) (hs : d.Steps uid request ids d.clock d')
    (hc : d'.clock = d.clock + 1) (hops : d'.operations = d.operations) : d'.Accounted := by
  have hpasses (o : Origin) : d'.passes o = d.passes o := by simp only [passes, hops]
  refine ⟨h.timed.hook hs hc, ?_, ?_, ?_, ?_, ?_⟩
  · rw [hops, hc]
    exact fun op hop => Nat.lt_succ_of_lt (h.old op hop)
  · rw [hops]
    intro op hop info' hk hserial
    rcases hs.generation hk with ⟨info, hinfo, hs, hp, -⟩ | ⟨hnow, -⟩
    · rw [← hp]
      exact h.limit op hop info hinfo (hs.trans hserial)
    · have := h.old op hop
      omega
  · rw [hops]
    exact h.sameLimit
  · intro k info' hk hlimit
    rw [hpasses]
    rcases hs.generation hk with ⟨info, hinfo, hs, hp, hu⟩ | ⟨hnow, hu⟩
    · have hbudget : d'.budget k info' = d.budget k info := by rw [budget, budget, hu, hp]
      rw [hbudget, ← hs, ← hp]
      exact h.current k info hinfo (hp ▸ hlimit)
    · have hbudget : d'.budget k info' = info'.params.usageCountLimit := by
        rw [budget, hu hlimit, Option.getD_some]
      have hzero : d.passes ⟨k, info'.response.serial⟩ = 0 := by
        refine passes_eq_zero fun op hop ho => ?_
        have := h.old op hop
        rw [ho, hnow] at this
        exact absurd this (lt_irrefl _)
      rw [hbudget, hzero]
      omega
  · intro op hop
    rw [hpasses]
    rw [hops] at hop
    exact h.within op hop

/-- A new operation has not passed, and its generation has a budget. -/
theorem append {op : SoftwareOperationBinder} {info : Info} (h : d.Accounted)
    (hop : d.NewOperation op info) :
    ({ d with operations := d.operations ++ [op] } : Daemon).tick.Accounted := by
  set d' : Daemon := ({ d with operations := d.operations ++ [op] } : Daemon).tick with hd'
  have hpasses (o : Origin) : d'.passes o = d.passes o := by simp [hd', tick, passes, hop.passes]
  have hmem {op' : SoftwareOperationBinder} (h : op' ∈ d'.operations) :
      op' ∈ d.operations ∨ op' = op := by
    simpa [hd', tick] using h
  have hlimit {op' : SoftwareOperationBinder} (hop' : op' ∈ d.operations)
      (ho : op'.origin = op.origin) : op'.usageCountLimit = op.usageCountLimit :=
    (h.limit op' hop' info (ho ▸ hop.lookup) (ho ▸ hop.serial)).trans hop.limit.symm
  refine ⟨fun o ho => Nat.lt_succ_of_lt (h.timed o ho), ?_, ?_, ?_, ?_, ?_⟩
  · intro op' hop'
    refine Nat.lt_succ_of_lt ?_
    rcases hmem hop' with hop' | rfl
    · exact h.old op' hop'
    · exact h.timed op'.origin (.inl ⟨info, hop.lookup, hop.serial⟩)
  · intro op' hop' info' hk hserial
    rcases hmem hop' with hop' | rfl
    · exact h.limit op' hop' info' hk hserial
    · obtain rfl := Option.some.inj (hop.lookup.symm.trans hk)
      exact hop.limit
  · intro op₁ hop₁ op₂ hop₂ ho
    rcases hmem hop₁ with hop₁ | rfl <;> rcases hmem hop₂ with hop₂ | rfl
    · exact h.sameLimit op₁ hop₁ op₂ hop₂ ho
    · exact hlimit ‹_› ho
    · exact (hlimit ‹_› ho.symm).symm
    · rfl
  · intro k info' hk hpos
    rw [hpasses]
    exact h.current k info' hk hpos
  · intro op' hop' hpos
    rw [hpasses]
    rcases hmem hop' with hop' | rfl
    · exact h.within op' hop' hpos
    · have := h.current op'.origin.key info hop.lookup (hop.limit ▸ hpos)
      rw [hop.serial, ← hop.limit] at this
      change _ ∧ (d.passes op'.origin : Int) + _ ≤ _ at this
      omega

theorem pre (h : d.Accounted) : (d.pre P env uid request).1.Accounted := by
  rcases pre_operations P env uid d request with
    hops | ⟨op, info, hop, hd⟩
  · exact h.hook (pre_steps P env request) (pre_clock ..) hops
  · rw [hd]
    exact h.append hop

theorem post {resultCode : Int} {reply : Option Parcel} (h : d.Accounted) :
    (d.post P env uid request resultCode reply).1.Accounted :=
  h.hook (post_steps P env request resultCode reply) (post_clock ..) post_operations

/-- Dropping every key leaves the operations with what they have used. -/
theorem cleared (h : d.Accounted) (hcache : d'.cache = {}) (hops : d'.operations = d.operations)
    (hclock : d'.clock = d.clock) : d'.Accounted := by
  have hnone {k : Key} : d'.cache.keys.lookup k = none := by rw [hcache]; rfl
  refine ⟨?_, ?_, ?_, ?_, ?_, ?_⟩
  · intro o ho
    rw [hcache] at ho
    exact absurd ho not_hasEntry_empty
  · rw [hops, hclock]
    exact h.old
  · intro op _ info hk
    rw [hnone] at hk
    cases hk
  · rw [hops]
    exact h.sameLimit
  · intro k info hk
    rw [hnone] at hk
    cases hk
  · have hpasses (o : Origin) : d'.passes o = d.passes o := by simp only [passes, hops]
    intro op hop
    rw [hpasses]
    rw [hops] at hop
    exact h.within op hop

end Accounted

/-! ## Calls -/

/-- A change at one place of a list changes a sum over the list by the difference. -/
theorem sum_map_set {α : Type*} {f : α → ℕ} {l : List α} {i : ℕ} {a b : α} (h : l[i]? = some a) :
    ((l.set i b).map f).sum + f a = (l.map f).sum + f b := by
  induction l generalizing i with
  | nil => cases h
  | cons c l ih =>
    cases i with
    | zero =>
      obtain rfl : c = a := by simpa using h
      simp only [List.set_cons_zero, List.map_cons, List.sum_cons]
      omega
    | succ i =>
      have := ih (i := i) (by simpa using h)
      simp only [List.set_cons_succ, List.map_cons, List.sum_cons]
      omega

section Operate

variable {i : ℕ} {op op' : SoftwareOperationBinder} {u' : HashMap Key Int}

/-- The state after a call that replaced the operation `i` and the counters. -/
def called (i : ℕ) (op' : SoftwareOperationBinder) (u' : HashMap Key Int) (d : Daemon) : Daemon :=
  { d with operations := d.operations.set i op', cache := { d.cache with usageRemaining := u' } }

theorem operate_eq_called {call : SoftwareOperationBinder.Call} (hop : d.operations[i]? = some op) :
    d.operate i call = d.called i (op.call d.cache.usageRemaining call).1
      (op.call d.cache.usageRemaining call).2.1 := by
  simp only [operate, hop, called]

variable (u') in
theorem passes_called (hop : d.operations[i]? = some op) (horigin : op'.origin = op.origin)
    (o : Origin) :
    (d.called i op' u').passes o + (if op.origin = o then op.passes else 0) =
      d.passes o + (if op.origin = o then op'.passes else 0) := by
  have := sum_map_set (f := fun op => if op.origin = o then op.passes else 0) (b := op') hop
  simpa only [passes, called, horigin] using this

/-- What a call cannot spoil; `current` and `within` depend on what it charges. -/
theorem Accounted.called (h : d.Accounted) (hop : d.operations[i]? = some op)
    (horigin : op'.origin = op.origin) (hlimit : op'.usageCountLimit = op.usageCountLimit)
    (hcurrent : ∀ k info, d.cache.keys.lookup k = some info → 0 < info.params.usageCountLimit →
      0 ≤ (d.called i op' u').budget k info ∧ (d.called i op' u').passes ⟨k, info.response.serial⟩ +
        (d.called i op' u').budget k info ≤ info.params.usageCountLimit)
    (hwithin : ∀ op'' ∈ d.operations, 0 < op''.usageCountLimit →
      ((d.called i op' u').passes op''.origin : Int) ≤ op''.usageCountLimit) :
    (d.called i op' u').Accounted := by
  have hmatch {op'' : SoftwareOperationBinder} (hop'' : op'' ∈ (d.called i op' u').operations) :
      ∃ op₀ ∈ d.operations, op₀.origin = op''.origin ∧
        op₀.usageCountLimit = op''.usageCountLimit := by
    rcases List.mem_or_eq_of_mem_set hop'' with hop'' | rfl
    · exact ⟨op'', hop'', rfl, rfl⟩
    · exact ⟨op, List.mem_of_getElem? hop, horigin.symm, hlimit.symm⟩
  refine ⟨h.timed, ?_, ?_, ?_, hcurrent, ?_⟩
  · intro op'' hop''
    obtain ⟨op₀, hop₀, ho, -⟩ := hmatch hop''
    exact ho ▸ h.old op₀ hop₀
  · intro op'' hop'' info hk hserial
    obtain ⟨op₀, hop₀, ho, hl⟩ := hmatch hop''
    exact hl ▸ h.limit op₀ hop₀ info (ho ▸ hk) (ho ▸ hserial)
  · intro op₁ hop₁ op₂ hop₂ heq
    obtain ⟨op₁', hop₁', ho₁, hl₁⟩ := hmatch hop₁
    obtain ⟨op₂', hop₂', ho₂, hl₂⟩ := hmatch hop₂
    rw [← hl₁, ← hl₂]
    exact h.sameLimit op₁' hop₁' op₂' hop₂' (ho₁.trans (heq.trans ho₂.symm))
  · intro op'' hop'' hpos
    obtain ⟨op₀, hop₀, ho, hl⟩ := hmatch hop''
    rw [← ho, ← hl]
    exact hwithin op₀ hop₀ (hl ▸ hpos)

/-- A call that charges nothing. -/
theorem Accounted.called_idle (h : d.Accounted) (hop : d.operations[i]? = some op)
    (horigin : op'.origin = op.origin) (hlimit : op'.usageCountLimit = op.usageCountLimit)
    (hpasses : op'.passes = op.passes) (hu : ∀ k, u'.lookup k = d.cache.usageRemaining.lookup k) :
    (d.called i op' u').Accounted ∧ d.KeepsOtherBudgets op.origin (d.called i op' u') := by
  have hsame (o : Origin) : (d.called i op' u').passes o = d.passes o := by
    have := passes_called u' hop horigin o
    rw [hpasses] at this
    exact Nat.add_right_cancel this
  have hbudget (k : Key) (info : Info) : (d.called i op' u').budget k info = d.budget k info := by
    simp only [budget, Daemon.called, hu]
  refine ⟨h.called hop horigin hlimit ?_ ?_, fun k info _ _ => Int.le_of_eq (hbudget k info).symm⟩
  · intro k info hk hpos
    rw [hbudget, hsame]
    exact h.current k info hk hpos
  · intro op'' hop'' hpos
    rw [hsame]
    exact h.within op'' hop'' hpos

theorem passes_called_of_ne (hop : d.operations[i]? = some op) (horigin : op'.origin = op.origin)
    {o : Origin} (ho : op.origin ≠ o) : (d.called i op' u').passes o = d.passes o := by
  simpa only [if_neg ho, Nat.add_zero] using passes_called u' hop horigin o

variable (u') in
theorem passes_called_self (hop : d.operations[i]? = some op) (horigin : op'.origin = op.origin)
    (hpasses : op'.passes = op.passes + 1) :
    (d.called i op' u').passes op.origin = d.passes op.origin + 1 := by
  have := passes_called u' hop horigin op.origin
  rw [hpasses, if_pos rfl, if_pos rfl] at this
  omega

/-- A pass of an operation without limit. -/
theorem Accounted.called_free (h : d.Accounted) (hop : d.operations[i]? = some op)
    (horigin : op'.origin = op.origin) (hlimit : op'.usageCountLimit = op.usageCountLimit)
    (hfree : op.usageCountLimit ≤ 0) :
    (d.called i op' d.cache.usageRemaining).Accounted ∧
      d.KeepsOtherBudgets op.origin (d.called i op' d.cache.usageRemaining) := by
  have hmem := List.mem_of_getElem? hop
  refine ⟨h.called hop horigin hlimit ?_ ?_, fun k info _ _ => Int.le_refl _⟩
  · intro k info hk hpos
    have hne : op.origin ≠ ⟨k, info.response.serial⟩ := by
      intro ho
      have := h.limit op hmem info (by rw [ho]; exact hk) (by rw [ho])
      omega
    rw [passes_called_of_ne hop horigin hne]
    exact h.current k info hk hpos
  · intro op'' hop'' hpos
    have hne : op.origin ≠ op''.origin := by
      intro ho
      have := h.sameLimit op hmem op'' hop'' ho
      omega
    rw [passes_called_of_ne hop horigin hne]
    exact h.within op'' hop'' hpos

/-- A pass that is charged to the operation's own generation, which is current. -/
theorem Accounted.called_charged {info : Info} (h : d.Accounted) (hop : d.operations[i]? = some op)
    (horigin : op'.origin = op.origin) (hlimit : op'.usageCountLimit = op.usageCountLimit)
    (hpasses : op'.passes = op.passes + 1) (hpos : 0 < op.usageCountLimit)
    (hinfo : d.cache.keys.lookup op.origin.key = some info)
    (hserial : info.response.serial = op.origin.serial)
    (hcur : 0 < (d.cache.usageRemaining.lookup op.origin.key).getD op.usageCountLimit)
    (hu : u' = d.cache.usageRemaining.insert op.origin.key
      ((d.cache.usageRemaining.lookup op.origin.key).getD op.usageCountLimit - 1)) :
    (d.called i op' u').Accounted ∧ d.KeepsOtherBudgets op.origin (d.called i op' u') := by
  have hmem := List.mem_of_getElem? hop
  have hlimit' := h.limit op hmem info hinfo hserial
  have hcurrent := h.current op.origin.key info hinfo (hlimit' ▸ hpos)
  rw [hserial] at hcurrent
  change _ ∧ (d.passes op.origin : Int) + _ ≤ _ at hcurrent
  have hown := passes_called_self u' hop horigin hpasses
  have hcounter : (d.cache.usageRemaining.lookup op.origin.key).getD op.usageCountLimit =
      d.budget op.origin.key info := by rw [budget, hlimit']
  rw [hcounter] at hcur hu
  have hbudget (k : Key) (info' : Info) : (d.called i op' u').budget k info' =
      if k = op.origin.key then d.budget op.origin.key info - 1 else d.budget k info' := by
    simp only [budget, Daemon.called, hu, HashMap.lookup_insert_ite]
    split_ifs <;> rfl
  refine ⟨h.called hop horigin hlimit ?_ ?_, ?_⟩
  · intro k info' hk hpos'
    rw [hbudget]
    split_ifs with hkk
    · obtain rfl : info = info' := Option.some.inj (hinfo.symm.trans (hkk ▸ hk))
      have ho : op.origin = ⟨k, info.response.serial⟩ := by rw [hkk, hserial]
      rw [← ho, hown]
      omega
    · rw [passes_called_of_ne hop horigin fun ho => hkk (ho ▸ rfl)]
      exact h.current k info' hk hpos'
  · intro op'' hop'' hpos'
    by_cases ho : op.origin = op''.origin
    · have := h.sameLimit op hmem op'' hop'' ho
      rw [← ho, hown]
      omega
    · rw [passes_called_of_ne hop horigin ho]
      exact h.within op'' hop'' hpos'
  · intro k info' hk hne
    rw [hbudget]
    split_ifs with hkk
    · obtain rfl : info = info' := Option.some.inj (hinfo.symm.trans (hkk ▸ hk))
      exact absurd (by rw [hkk, hserial]) hne
    · exact Int.le_refl _

end Operate

/-- A call that charges its own generation, if any, keeps the accounts and the other budgets. -/
theorem Accounted.operate {i : ℕ} {call : SoftwareOperationBinder.Call} {op : SoftwareOperationBinder}
    (h : d.Accounted) (hop : d.operations[i]? = some op)
    (hcharge : (∃ input engine, call = .finish input engine ∧
        SoftwareOperationBinder.checkInput input = .ok ()) →
      op.active = true → 0 < op.usageCountLimit → op.usageKey = some op.origin.key ∧
        ∃ info, d.cache.keys.lookup op.origin.key = some info ∧
          info.response.serial = op.origin.serial) :
    (d.operate i call).Accounted ∧ d.KeepsOtherBudgets op.origin (d.operate i call) := by
  rw [operate_eq_called hop]
  obtain ⟨⟨horigin, hlimit⟩, hcases⟩ := op.call_cases d.cache.usageRemaining call
  rcases hcases with ⟨hpasses, hu⟩ | ⟨hpasses, hactive, hfinish, hcases⟩
  · exact h.called_idle hop horigin hlimit hpasses hu
  · rcases hcases with ⟨hfree, hu⟩ | ⟨k, hkey, hpos, hcur, hu⟩
    · rw [hu]
      refine h.called_free hop horigin hlimit ?_
      rcases hfree with hnone | hle
      · by_contra hlt
        have := (hcharge hfinish hactive (by omega)).1
        rw [hnone] at this
        cases this
      · exact hle
    · obtain ⟨hkey', info, hinfo, hserial⟩ := hcharge hfinish hactive hpos
      obtain rfl : k = op.origin.key := Option.some.inj (hkey.symm.trans hkey')
      exact h.called_charged hop horigin hlimit hpasses hpos hinfo hserial hcur hu

end Daemon

/-! ## Runs -/

namespace World

variable {P : Platform} {w : World}

theorem accounted_next {e : Event} (h : w.daemon.Accounted) (hs : e.inSession)
    (hc : w.ChargesOwnGeneration e) : (w.next P e).daemon.Accounted := by
  cases e with
  | arrive id uid request env =>
    rcases w.arrive_daemon P id uid request env with hd | hd
    · exact hd ▸ h
    · rw [next, hd]
      exact h.pre
  | complete id resultCode reply env =>
    rcases w.complete_daemon P id resultCode reply env with hd | ⟨t, -, hd⟩
    · exact hd ▸ h
    · rw [next, hd]
      exact h.post
  | operate i call =>
    cases hop : w.daemon.operations[i]? with
    | none =>
      have hd : w.daemon.operate i call = w.daemon := by simp only [Daemon.operate, hop]
      rw [next, withDaemon, hd]
      exact h
    | some op =>
      refine (h.operate hop ?_).1
      rintro ⟨input, engine, rfl, hinput⟩ hactive
      exact hc op hop hactive hinput
  | abandon | targetChanged | packageManagerDied | persist =>
    exact ⟨h.timed, h.old, h.limit, h.sameLimit, h.current, h.within⟩
  | keyboxChanged => exact h.cleared rfl rfl rfl
  | initializeConfig modes keyboxes =>
    dsimp only [next]
    split_ifs
    · cases modes <;> cases keyboxes
      · exact h
      · exact h.cleared rfl rfl rfl
      · exact ⟨h.timed, h.old, h.limit, h.sameLimit, h.current, h.within⟩
      · exact h.cleared rfl rfl rfl
    · exact h
  | restart | loadPersistedKeys => exact hs.elim

theorem otherBudgetsKept_of_accounted {e : Event} (h : w.daemon.Accounted)
    (hc : w.ChargesOwnGeneration e) : w.OtherBudgetsKept e := by
  cases e with
  | operate i call =>
    intro op hop
    refine (h.operate hop ?_).2
    rintro ⟨input, engine, rfl, hinput⟩ hactive
    exact hc op hop hactive hinput
  | _ => trivial

/-- In a session whose finished operations charge their own generation, no generation is used more often
than its limit, and no operation spends the budget of another. -/
theorem usage_limited (P : Platform) (es : List Event) (hs : ∀ e ∈ es, e.inSession)
    (h : Machine.AllSteps (World.next P) ChargesOwnGeneration {} es) :
    (World.run P {} es).daemon.WithinLimits ∧
      Machine.AllSteps (World.next P) OtherBudgetsKept {} es := by
  have hinit : ({} : Daemon).Accounted := by
    refine ⟨fun o ho => absurd ho Daemon.not_hasEntry_empty, ?_, ?_, ?_, ?_, ?_⟩
    · exact fun op hop => (by cases hop)
    · exact fun op hop => (by cases hop)
    · exact fun op hop => (by cases hop)
    · exact fun k info hk => (by cases hk)
    · exact fun op hop => (by cases hop)
  have hboth : Machine.AllSteps (World.next P)
      (fun w e => e.inSession ∧ w.ChargesOwnGeneration e) {} es := by
    intro es₁ e es₂ hes
    exact ⟨hs e (by simp [hes]), h es₁ e es₂ hes⟩
  have hstep (w : World) (e : Event) (hw : w.daemon.Accounted)
      (hc : e.inSession ∧ w.ChargesOwnGeneration e) : (w.next P e).daemon.Accounted :=
    accounted_next hw hc.1 hc.2
  refine ⟨?_, ?_⟩
  · exact (hboth.invariant (I := fun w : World => w.daemon.Accounted) hinit hstep).within
  · exact hboth.ensures (I := fun w : World => w.daemon.Accounted) hinit hstep
      fun _ _ hw hc => otherBudgetsKept_of_accounted hw hc.2

end World

namespace Demo

/-- An attested signing key that may be used once. -/
def onceParams : List KeyParameter := ecParams ++ [⟨Tag.USAGE_COUNT_LIMIT, .integer 1⟩]

/-- The owner starts to sign with the key. -/
def sign (id : ℕ) : Event :=
  .arrive id owner (.createOperation .trustedEnvironment (some byAlias)
    [⟨Tag.PURPOSE, .keyPurpose KeyPurpose.SIGN⟩] false) (env 7)

/-- The operation `op` is finished. -/
def finish (op : ℕ) : Event := .operate op (.finish none (.ok none))

/-- Two operations of a key for one use; the second one is finished in vain. -/
def signTwice : List Event :=
  start .GENERATE .AUTO ++ [.arrive 1 owner (generate onceParams) (env 5), sign 2, sign 3, finish 0,
    finish 1]

/-- The key is deleted before the second operation is finished. -/
def signDeleteSign : List Event :=
  start .GENERATE .AUTO ++ [.arrive 1 owner (generate onceParams) (env 5), sign 2, sign 3, finish 0,
    .arrive 4 owner (.deleteKey (some byAlias)) (env 8), finish 1]

end Demo

namespace World

open Demo

theorem usage_limited_signTwice :
    (World.run platform {} signTwice).daemon.WithinLimits ∧
      Machine.AllSteps (World.next platform) OtherBudgetsKept {} signTwice := by
  refine usage_limited platform signTwice (by simp [signTwice, start, sign, finish, Event.inSession]) ?_
  refine Machine.allSteps_cons trivial (Machine.allSteps_cons trivial ?_)
  refine Machine.allSteps_cons trivial (Machine.allSteps_cons trivial ?_)
  refine Machine.allSteps_cons (fun op hop _ _ _ => ?_) (Machine.allSteps_cons (fun op hop _ _ _ => ?_)
    Machine.allSteps_nil)
  · obtain rfl := Option.some.inj hop
    exact ⟨by decide, _, rfl, rfl⟩
  · obtain rfl := Option.some.inj hop
    exact ⟨by decide, _, rfl, rfl⟩

/-- The counter goes with the deleted key, and the second operation finds a full budget again. -/
theorem deleted_key_used_twice : ¬ ∀ P es, (∀ e ∈ es, e.inSession) →
    (World.run P {} es).daemon.WithinLimits ∧
      Machine.AllSteps (World.next P) OtherBudgetsKept {} es := by
  intro h
  have hwithin := (h platform signDeleteSign
    (by simp [signDeleteSign, start, sign, finish, Event.inSession])).1
  unfold Daemon.WithinLimits at hwithin
  revert hwithin
  decide

end World

end TrickyStore
