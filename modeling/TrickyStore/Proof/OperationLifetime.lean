import TrickyStore.Lib.Machine
import TrickyStore.Model.Operation

/-!
# The life of a software operation

`update`, `updateAad`, `finish` and `abort` in any order, with an engine that may return or throw at each
call and a counter that other operations change in between.  An operation that has ended refuses every
later call.  `consumeUsage` stands outside the `try` whose `finally` ends the operation, so a `finish`
that the usage limit denies is not an end.
-/

open Lib

namespace TrickyStore

/-- A call with the usage counters that it finds. -/
structure OperationCall where
  counters : HashMap Key Int
  call : SoftwareOperationBinder.Call

namespace SoftwareOperationBinder

inductive EngineMethod where
  | update
  | updateAad
  | finish
deriving DecidableEq, Repr

/-- `checkActive` and `checkInput` return. -/
def passesChecks (op : SoftwareOperationBinder) (data : Option Bytes) : Bool :=
  op.active && data.all fun b => b.length ≤ MAX_RECEIVE_DATA

/-- The method of the engine that a call reaches. -/
def reached (op : SoftwareOperationBinder) (c : OperationCall) : Option EngineMethod :=
  match c.call with
  | .update input _ => if op.passesChecks input then some .update else none
  | .updateAad aadInput _ => if op.passesChecks aadInput then some .updateAad else none
  | .finish input _ =>
    if op.passesChecks input && (op.consumeUsage c.counters).1 then some .finish else none
  | .abort => none

def next (op : SoftwareOperationBinder) (c : OperationCall) : SoftwareOperationBinder :=
  (op.call c.counters c.call).1

/-- The call is one after which the operation is over: a `finish` past the checks, whatever becomes of it,
an `updateAad` whose engine has thrown, or an `abort`. -/
def Ends (op : SoftwareOperationBinder) (c : OperationCall) : Prop :=
  match c.call with
  | .update .. => False
  | .updateAad aadInput engine => op.passesChecks aadInput = true ∧ ∃ t, engine = .error t
  | .finish input _ => op.passesChecks input = true
  | .abort => True

/-- The call fails for the handle, changes no counter and does not reach the engine. -/
structure Refused (op : SoftwareOperationBinder) (c : OperationCall) : Prop where
  invalid : ∃ message, (op.call c.counters c.call).2.2 =
    .error (.serviceSpecific KeymasterDefs.KM_ERROR_INVALID_OPERATION_HANDLE message)
  counters : (op.call c.counters c.call).2.1 = c.counters
  engine : op.reached c = none

/-- Once a call has ended the operation, every later one but `abort` is refused, and the engine finishes at
most once. -/
structure DiesOnce (op : SoftwareOperationBinder) (calls : List OperationCall) : Prop where
  refused : ∀ before c between c' after, calls = before ++ c :: (between ++ c' :: after) →
    (Machine.run next op before).Ends c → c'.call ≠ .abort →
      (Machine.run next op (before ++ c :: between)).Refused c'
  finishes : ∀ before c between c' after, calls = before ++ c :: (between ++ c' :: after) →
    (Machine.run next op before).reached c = some .finish →
      (Machine.run next op (before ++ c :: between)).reached c' ≠ some .finish

/-- The usage counter of the operation's key has run out. -/
def UsedUp (op : SoftwareOperationBinder) (usageRemaining : HashMap Key Int) : Prop :=
  ∃ k v, op.usageKey = some k ∧ 0 < op.usageCountLimit ∧ usageRemaining.lookup k = some v ∧ v ≤ 0

/-- A `finish` past the checks that finds the counter used up. -/
def Denied (op : SoftwareOperationBinder) (c : OperationCall) : Prop :=
  ∃ input engine, c.call = .finish input engine ∧ op.passesChecks input = true ∧ op.UsedUp c.counters

variable {op : SoftwareOperationBinder} {c c' : OperationCall} {calls : List OperationCall}

/-! ## The checks -/

theorem passesChecks_eq_true {data : Option Bytes} :
    op.passesChecks data = true ↔ op.checkActive = .ok () ∧ checkInput data = .ok () := by
  have hactive : op.checkActive = .ok () ↔ op.active = true := by
    unfold checkActive
    split_ifs with h
    · exact iff_of_true rfl h
    · exact iff_of_false (by simp) h
  have hinput : checkInput data = .ok () ↔ (data.all fun b => b.length ≤ MAX_RECEIVE_DATA) = true := by
    unfold checkInput
    cases data with
    | none => simp
    | some b =>
      simp only [Option.all_some, decide_eq_true_eq]
      split_ifs with h
      · exact iff_of_false (by simp) (by omega)
      · exact iff_of_true rfl (by omega)
  rw [passesChecks, Bool.and_eq_true, hactive, hinput]

theorem active_of_passesChecks {data : Option Bytes} (h : op.passesChecks data = true) :
    op.active = true := by
  unfold passesChecks at h
  exact (Bool.and_eq_true_iff.1 h).1

theorem checkActive_of_active (h : op.active = true) : op.checkActive = .ok () := by
  unfold checkActive
  rw [if_pos h]

theorem checkInput_eq (data : Option Bytes) : checkInput data = .ok () ∨
    ∃ message, checkInput data = .error (.serviceSpecific ResponseCode.TOO_MUCH_DATA message) := by
  unfold checkInput
  split
  · exact .inl rfl
  · split_ifs
    · exact .inr ⟨_, rfl⟩
    · exact .inl rfl

theorem consumeUsage_eq_false {u : HashMap Key Int} :
    (op.consumeUsage u).1 = false ↔ op.UsedUp u := by
  unfold consumeUsage UsedUp
  cases hk : op.usageKey with
  | none => simp
  | some k =>
    dsimp only
    by_cases hlimit : op.usageCountLimit ≤ 0
    · rw [if_pos hlimit]
      refine iff_of_false (by simp) ?_
      rintro ⟨k', v, -, hpos, -⟩
      omega
    · rw [if_neg hlimit]
      cases hv : u.lookup k with
      | none =>
        rw [Option.getD_none, if_neg hlimit]
        refine iff_of_false (by simp) ?_
        rintro ⟨k', v, hk', -, hv', -⟩
        obtain rfl := Option.some.inj hk'
        simp [hv] at hv'
      | some v =>
        rw [Option.getD_some]
        by_cases hle : v ≤ 0
        · rw [if_pos hle]
          exact iff_of_true rfl ⟨k, v, rfl, by omega, hv, hle⟩
        · rw [if_neg hle]
          refine iff_of_false (by simp) ?_
          rintro ⟨k', w, hk', -, hw, hle'⟩
          obtain rfl := Option.some.inj hk'
          obtain rfl := Option.some.inj (hv.symm.trans hw)
          exact hle hle'

/-! ## What one call does -/

theorem finish_of_passes {input : Option Bytes} (h : op.passesChecks input = true)
    (u : HashMap Key Int) (r : Outcome) :
    op.finish u input r =
      if (op.consumeUsage u).1 then
        ({ op with active := false, passes := op.passes + 1 }, (op.consumeUsage u).2, finishOutcome r)
      else (op, (op.consumeUsage u).2,
        .error (.serviceSpecific KeymasterDefs.KM_ERROR_KEY_EXPIRED "Key usage limit expired")) := by
  obtain ⟨hactive, hinput⟩ := passesChecks_eq_true.1 h
  unfold finish
  rw [hactive, hinput]
  obtain ⟨b, u'⟩ := op.consumeUsage u
  cases b <;> rfl

theorem refused_of_inactive (h : op.active = false) (hcall : c.call ≠ .abort) : op.Refused c := by
  have hcheck : op.checkActive = .error (.serviceSpecific KeymasterDefs.KM_ERROR_INVALID_OPERATION_HANDLE
      "Operation is no longer active") := by
    unfold checkActive
    rw [h]
    rfl
  obtain ⟨counters, call⟩ := c
  cases call with
  | update input engine =>
    refine ⟨⟨"Operation is no longer active", ?_⟩, rfl, by simp [reached, passesChecks, h]⟩
    simp only [SoftwareOperationBinder.call, update, hcheck]
    rfl
  | updateAad aadInput engine =>
    refine ⟨⟨"Operation is no longer active", ?_⟩, rfl, by simp [reached, passesChecks, h]⟩
    simp only [SoftwareOperationBinder.call, updateAad, hcheck]
  | finish input engine =>
    have hfinish : op.finish counters input engine = (op, counters, .error
        (.serviceSpecific KeymasterDefs.KM_ERROR_INVALID_OPERATION_HANDLE
          "Operation is no longer active")) := by
      unfold finish
      rw [hcheck]
    refine ⟨⟨"Operation is no longer active", ?_⟩, ?_, by simp [reached, passesChecks, h]⟩
    · simp only [SoftwareOperationBinder.call, hfinish]
    · simp only [SoftwareOperationBinder.call, hfinish]
  | abort => exact absurd rfl hcall

/-- No call makes an operation active again. -/
theorem next_inactive (h : op.active = false) : (op.next c).active = false := by
  by_cases hcall : c.call = .abort
  · unfold next
    rw [hcall]
    rfl
  · obtain ⟨counters, call⟩ := c
    have hcheck : ∃ t, op.checkActive = .error t := by
      unfold checkActive
      rw [h]
      exact ⟨_, rfl⟩
    obtain ⟨t, hcheck⟩ := hcheck
    cases call with
    | update input engine => exact h
    | updateAad aadInput engine =>
      simp only [next, SoftwareOperationBinder.call, updateAad, hcheck]
      exact h
    | finish input engine =>
      simp only [next, SoftwareOperationBinder.call, finish, hcheck]
      exact h
    | abort => rfl

theorem run_inactive (h : op.active = false) (calls : List OperationCall) :
    (Machine.run next op calls).active = false := by
  induction calls generalizing op with
  | nil => exact h
  | cons c calls ih => exact ih (next_inactive h)

theorem next_of_denied (h : op.Denied c) : op.next c = op := by
  obtain ⟨counters, call⟩ := c
  obtain ⟨input, engine, rfl, hpasses, hused⟩ := h
  simp only [next, SoftwareOperationBinder.call]
  rw [finish_of_passes hpasses, consumeUsage_eq_false.2 hused]
  rfl

theorem active_of_denied (h : op.Denied c) : op.active = true := by
  obtain ⟨input, engine, -, hpasses, -⟩ := h
  exact active_of_passesChecks hpasses

/-- Only a denial keeps a call that should end the operation from doing so. -/
theorem next_inactive_of_ends (hends : op.Ends c) (hdenied : ¬ op.Denied c) :
    (op.next c).active = false := by
  obtain ⟨counters, call⟩ := c
  cases call with
  | update input engine => exact hends.elim
  | updateAad aadInput engine =>
    obtain ⟨hpasses, t, rfl⟩ := hends
    obtain ⟨hactive, hinput⟩ := passesChecks_eq_true.1 hpasses
    simp only [next, SoftwareOperationBinder.call, updateAad, hactive, hinput]
  | finish input engine =>
    have hallowed : (op.consumeUsage counters).1 = true := by
      by_contra hne
      exact hdenied ⟨input, engine, rfl, hends, consumeUsage_eq_false.1 (by simpa using hne)⟩
    simp only [next, SoftwareOperationBinder.call]
    rw [finish_of_passes hends, if_pos hallowed]
  | abort => rfl

theorem next_inactive_of_reached (h : op.reached c = some .finish) : (op.next c).active = false := by
  obtain ⟨counters, call⟩ := c
  cases call with
  | update input engine => simp [reached] at h
  | updateAad aadInput engine => simp [reached] at h
  | finish input engine =>
    have hboth : op.passesChecks input = true ∧ (op.consumeUsage counters).1 = true := by
      simpa [reached] using h
    simp only [next, SoftwareOperationBinder.call]
    rw [finish_of_passes hboth.1, if_pos hboth.2]
  | abort => simp [reached] at h

theorem not_reached_of_inactive (h : op.active = false) : op.reached c = none := by
  by_cases hcall : c.call = .abort
  · unfold reached
    rw [hcall]
  · exact (refused_of_inactive h hcall).engine

/-- An active operation never answers that it has ended without having asked its engine. -/
theorem not_refused_of_active (h : op.active = true) (hcall : c.call ≠ .abort) : ¬ op.Refused c := by
  rintro ⟨⟨message, hinvalid⟩, -, hreached⟩
  have hactive := checkActive_of_active h
  obtain ⟨counters, call⟩ := c
  -- what is left of a failed input check is a code of its own
  have hlarge : ∀ data, op.passesChecks data = false →
      ∃ m, checkInput data = .error (.serviceSpecific ResponseCode.TOO_MUCH_DATA m) := by
    intro data hpasses
    refine (checkInput_eq data).resolve_left fun hinput => ?_
    rw [passesChecks_eq_true.2 ⟨hactive, hinput⟩] at hpasses
    simp at hpasses
  cases call with
  | update input engine =>
    obtain ⟨m, hinput⟩ := hlarge input (by simpa [reached] using hreached)
    simp only [SoftwareOperationBinder.call, update, hactive, hinput] at hinvalid
    simp [bind, Except.bind, ResponseCode.TOO_MUCH_DATA,
      KeymasterDefs.KM_ERROR_INVALID_OPERATION_HANDLE] at hinvalid
  | updateAad aadInput engine =>
    obtain ⟨m, hinput⟩ := hlarge aadInput (by simpa [reached] using hreached)
    simp only [SoftwareOperationBinder.call, updateAad, hactive, hinput] at hinvalid
    simp [ResponseCode.TOO_MUCH_DATA, KeymasterDefs.KM_ERROR_INVALID_OPERATION_HANDLE] at hinvalid
  | finish input engine =>
    simp only [SoftwareOperationBinder.call] at hinvalid
    by_cases hpasses : op.passesChecks input = true
    · have hdenied : (op.consumeUsage counters).1 = false := by
        simpa [reached, hpasses] using hreached
      rw [finish_of_passes hpasses, hdenied] at hinvalid
      simp [KeymasterDefs.KM_ERROR_KEY_EXPIRED,
        KeymasterDefs.KM_ERROR_INVALID_OPERATION_HANDLE] at hinvalid
    · obtain ⟨m, hinput⟩ := hlarge input (by simpa using hpasses)
      simp only [finish, hactive, hinput] at hinvalid
      simp [ResponseCode.TOO_MUCH_DATA, KeymasterDefs.KM_ERROR_INVALID_OPERATION_HANDLE] at hinvalid
  | abort => exact hcall rfl

/-! ## Whole lives -/

/-- An operation dies once in just those lives in which every denied `finish` is the last call or
followed by `abort`. -/
theorem dies_once_iff (op : SoftwareOperationBinder) (calls : List OperationCall) :
    op.DiesOnce calls ↔ ∀ before c c' after, calls = before ++ c :: c' :: after →
      (Machine.run next op before).Denied c → c'.call = .abort := by
  constructor
  · intro h before c c' after hcalls hdenied
    by_contra hcall
    have hends : (Machine.run next op before).Ends c := by
      obtain ⟨input, engine, hc, hpasses, -⟩ := hdenied
      unfold Ends
      rw [hc]
      exact hpasses
    have hrefused := h.refused before c [] c' after hcalls hends hcall
    rw [Machine.run_concat, next_of_denied hdenied] at hrefused
    exact not_refused_of_active (active_of_denied hdenied) hcall hrefused
  · intro h
    refine ⟨?_, ?_⟩
    · intro before c between c' after hcalls hends hcall
      apply refused_of_inactive _ hcall
      rw [Machine.run_append, Machine.run_cons]
      by_cases hdenied : (Machine.run next op before).Denied c
      · cases between with
        | nil => exact absurd (h before c c' after hcalls hdenied) hcall
        | cons d between =>
          have habort := h before c d (between ++ c' :: after) hcalls hdenied
          rw [Machine.run_cons]
          apply run_inactive
          unfold next
          rw [habort]
          rfl
      · exact run_inactive (next_inactive_of_ends hends hdenied) between
    · intro before c between c' after _ hreached
      rw [Machine.run_append, Machine.run_cons,
        not_reached_of_inactive (run_inactive (next_inactive_of_reached hreached) between)]
      simp

/-- A `finish` that the usage limit denies is survived: the key's counter goes away with the key, and the
next `finish` signs. -/
theorem denied_finish_is_survived : ¬ ∀ op calls, DiesOnce op calls := by
  intro h
  let k : Key := ⟨10123, "alias"⟩
  let op : SoftwareOperationBinder :=
    { engine := .signature "SHA256withECDSA" [1] false, usageKey := some k, usageCountLimit := 1,
      origin := ⟨k, 0⟩ }
  let call : Call := .finish (some [7]) (.ok (some [8]))
  let calls : List OperationCall := [⟨AList.insert k 0 ∅, call⟩, ⟨∅, call⟩]
  have hrefused := (h op calls).refused [] _ [] _ [] rfl rfl (by simp [call])
  exact absurd hrefused.engine (by decide)

end SoftwareOperationBinder

end TrickyStore
