import TrickyStore.Native.TransactionQueue
import Mathlib.Algebra.Order.BigOperators.Group.List
import Mathlib.Algebra.Order.Group.Nat

/-!
# Redirected transactions are served as themselves

The queue of a thread holds, in order, the origins of the redirected transactions that have not started.
A read adds the origins of what it returns to both sides, the start of a redirected transaction takes
the first of both, and nothing else touches either: not the end of an execution, however deeply nested,
nor what other threads do.
-/

open Lib

namespace TrickyStore

namespace Native

variable {Thread Binder : Type}

/-! ## Origins -/

/-- What is recorded for a transaction that is redirected. -/
def BinderTransactionData.origin (data : BinderTransactionData Binder) : TransactionOrigin Binder :=
  if data.code = kBackdoorCode ∧ data.senderEuid = 0 then ⟨kBackdoorCode, none⟩
  else ⟨data.code, some data.cookie⟩

/-- The origin of a command that was redirected. -/
def Delivery.origin (d : Delivery Binder) : Option (TransactionOrigin Binder) :=
  d.onStub.map BinderTransactionData.origin

theorem origin_untouched (command : Command Binder) : Delivery.origin ⟨command, command.untouched⟩ = none := by
  cases command <;> rfl

/-- What is pushed is the origin of a transaction that is redirected. -/
theorem processCommand_origin (registry : Registry Binder) (alive : Binder → Bool) (command : Command Binder) :
    (processCommand registry alive command).2 = (processCommand registry alive command).1.origin := by
  cases command with
  | other size => rfl
  | transaction secCtx data =>
    simp only [processCommand, processBinderTransaction]
    split_ifs with htarget hbackdoor hsystem hintercept
    · rfl
    · show _ = some data.origin
      rw [BinderTransactionData.origin, if_pos hbackdoor]
    · rfl
    · show _ = some data.origin
      rw [BinderTransactionData.origin, if_neg hbackdoor]
    · rfl

theorem processCommands_queue (registry : Registry Binder) (alive : Binder → Bool)
    (commands : List (Command Binder)) (queue : List (TransactionOrigin Binder)) :
    (processCommands registry alive commands queue).2 =
      queue ++ (processCommands registry alive commands queue).1.filterMap Delivery.origin := by
  induction commands generalizing queue with
  | nil => simp [processCommands]
  | cons command rest ih =>
    simp only [processCommands, ih, processCommand_origin]
    cases h : (processCommand registry alive command).1.origin with
    | none => simp [h]
    | some origin => simp [h]

/-- The queue grows by the origins of what was redirected. -/
theorem processBinderWriteRead_queue (registry : Registry Binder) (alive : Binder → Bool)
    (r : BinderWriteRead Binder) (queue : List (TransactionOrigin Binder)) :
    (processBinderWriteRead registry alive r queue).2 =
      queue ++ (processBinderWriteRead registry alive r queue).1.filterMap Delivery.origin := by
  unfold processBinderWriteRead
  split_ifs
  · simp [List.filterMap_map, origin_untouched]
  · exact processCommands_queue registry alive r.commands queue

theorem processCommands_others (registry : Registry Binder) (alive : Binder → Bool)
    (commands : List (Command Binder)) (queue : List (TransactionOrigin Binder))
    (h : ∀ command ∈ commands, ∃ size, command = .other size) :
    processCommands registry alive commands queue =
      (commands.map fun command => ⟨command, command.untouched⟩, queue) := by
  induction commands with
  | nil => rfl
  | cons command rest ih =>
    obtain ⟨size, rfl⟩ := h command List.mem_cons_self
    simp [processCommands, processCommand, Command.untouched,
      ih fun c hc => h c (List.mem_cons_of_mem _ hc)]

theorem size_le_readConsumed {r : BinderWriteRead Binder} {command : Command Binder}
    (h : command ∈ r.commands) : 4 + command.size ≤ r.readConsumed :=
  List.le_sum_of_mem (List.mem_map_of_mem h)

/-- A buffer that ends with its first command. -/
theorem commands_of_isLoneOther {r : BinderWriteRead Binder} (h : r.isLoneOther) :
    ∃ size, r.commands = [.other size] := by
  cases hcommands : r.commands with
  | nil => simp [BinderWriteRead.isLoneOther, hcommands] at h
  | cons command rest =>
    cases command with
    | transaction secCtx data => simp [BinderWriteRead.isLoneOther, hcommands] at h
    | other size =>
      simp only [BinderWriteRead.isLoneOther, BinderWriteRead.readConsumed, hcommands, List.head?_cons,
        List.map_cons, List.sum_cons, Command.size, decide_eq_true_eq] at h
      cases rest with
      | nil => exact ⟨size, rfl⟩
      | cons next rest =>
        simp only [List.map_cons, List.sum_cons] at h
        omega

/-- A buffer that is too short for a transaction, or is the size of its first command and that is none,
has no transaction, so the early exits skip nothing. -/
theorem processBinderWriteRead_eq (registry : Registry Binder) (alive : Binder → Bool)
    (r : BinderWriteRead Binder) (queue : List (TransactionOrigin Binder)) (hbuffer : r.readBuffer)
    (hsize : r.readSize ≠ 0) :
    processBinderWriteRead registry alive r queue = processCommands registry alive r.commands queue := by
  unfold processBinderWriteRead
  split_ifs with hexit
  · refine (processCommands_others registry alive r.commands queue fun command hmem => ?_).symm
    cases command with
    | other size => exact ⟨size, rfl⟩
    | transaction secCtx data =>
      exfalso
      simp only [hbuffer, Bool.not_true, hsize, decide_false, Bool.or_false, Bool.false_or,
        Bool.or_eq_true, decide_eq_true_eq] at hexit
      rcases hexit with hshort | hlone
      · have hlength := size_le_readConsumed hmem
        simp only [Command.size] at hlength
        split_ifs at hlength <;> omega
      · obtain ⟨size, hcommands⟩ := commands_of_isLoneOther hlone
        rw [hcommands, List.mem_singleton] at hmem
        cases hmem
  · rfl

/-! ## What the stub does with an origin -/

section Dispatch

variable {alive : Binder → Bool} {hasReply : Bool} {data : BinderTransactionData Binder} {target : Binder}
  {code : BitVec 32}

theorem dispatch_target (alive : Binder → Bool) (hasReply : Bool) (code : BitVec 32) (target : Binder) :
    dispatch alive hasReply ⟨code, some target⟩ =
      if alive target then .handle target code else .deadObject := by
  rw [dispatch, if_neg fun h => by cases h.1]

theorem dispatch_backdoor (alive : Binder → Bool) (hasReply : Bool) :
    dispatch alive hasReply ⟨kBackdoorCode, none⟩ = if hasReply then .writeInterceptor else .deadObject := by
  cases hasReply <;> rfl

theorem dispatch_origin_handle (h : dispatch alive hasReply data.origin = .handle target code) :
    target = data.cookie ∧ code = data.code := by
  unfold BinderTransactionData.origin at h
  split_ifs at h with hbackdoor
  · rw [dispatch_backdoor] at h
    split_ifs at h
  · rw [dispatch_target] at h
    split_ifs at h
    cases h
    exact ⟨rfl, rfl⟩

theorem dispatch_origin_of_alive (hbackdoor : data.code ≠ kBackdoorCode) (halive : alive data.cookie = true) :
    dispatch alive hasReply data.origin = .handle data.cookie data.code := by
  rw [BinderTransactionData.origin, if_neg fun h => hbackdoor h.1, dispatch_target, if_pos halive]

/-- Only a transaction that root sent with the backdoor code has no target in its origin. -/
theorem dispatch_origin_writeInterceptor (h : dispatch alive hasReply data.origin = .writeInterceptor) :
    data.senderEuid = 0 ∧ data.code = kBackdoorCode := by
  unfold BinderTransactionData.origin at h
  split_ifs at h with hbackdoor
  · exact hbackdoor.symm
  · rw [dispatch_target] at h
    split_ifs at h

/-- The part of an origin that decides what the stub does. -/
def TransactionOrigin.info (origin : TransactionOrigin Binder) (alive : Binder → Bool) :
    ThreadTransactionInfo where
  isBackdoorCode := origin.transactionCode = kBackdoorCode
  targetBinder :=
    match origin.targetBinder with
    | none => .null
    | some target => if alive target then .alive else .dead

/-- The steps of the stub are those of a transaction that is handled, and none otherwise. -/
theorem onTransact_stubDispatch {o : Outcomes} {queue : List (TransactionOrigin Binder)}
    (h : o.queued = queue.head?.map (·.info alive)) :
    onTransact o ≠ [] → ∃ target code, (stubDispatch alive o.hasReply queue).1 = .handle target code := by
  intro hsteps
  cases queue with
  | nil =>
    rw [onTransact, h] at hsteps
    exact absurd rfl hsteps
  | cons origin queue =>
    rw [onTransact, h] at hsteps
    simp only [List.head?_cons, Option.map_some, TransactionOrigin.info] at hsteps
    cases htarget : origin.targetBinder with
    | none => simp [htarget] at hsteps
    | some target =>
      refine ⟨target, origin.transactionCode, ?_⟩
      cases halive : alive target with
      | false => simp [htarget, halive] at hsteps
      | true => simp [stubDispatch, dispatch, htarget, halive]

end Dispatch

/-! ## The invariant -/

/-- The queue holds the origins of the redirected transactions that have not started. -/
def BinderThread.InOrder (thread : BinderThread Binder) : Prop :=
  thread.queue = thread.unread.filterMap Delivery.origin

/-- The stub used the origin of the transaction it was called with. -/
def Served.AsItself (r : Served Thread Binder) : Prop :=
  r.dispatch = Native.dispatch r.alive r.hasReply r.transaction.origin

structure Process.Ordered (s : Process Thread Binder) : Prop where
  inOrder (t : Thread) : (s.threads t).InOrder
  served : ∀ r ∈ s.served, r.AsItself

variable [DecidableEq Thread]

theorem Process.Ordered.setThread {s : Process Thread Binder} (h : s.Ordered) {t : Thread}
    {thread : BinderThread Binder} (hthread : thread.InOrder) : (s.setThread t thread).Ordered := by
  refine ⟨fun t' => ?_, h.served⟩
  by_cases ht : t' = t
  · subst ht
    simpa [Process.setThread] using hthread
  · simpa [Process.setThread, ht] using h.inOrder t'

theorem Process.Ordered.start {s : Process Thread Binder} (h : s.Ordered) {t : Thread}
    {alive : Binder → Bool} {hasReply : Bool} {delivery : Delivery Binder} {unread : List (Delivery Binder)}
    (hunread : (s.threads t).unread = delivery :: unread) :
    (s.start t alive hasReply delivery unread).Ordered := by
  have hqueue := h.inOrder t
  rw [BinderThread.InOrder, hunread] at hqueue
  cases htransaction : delivery.onStub with
  | none =>
    have horigin : delivery.origin = none := by rw [Delivery.origin, htransaction, Option.map_none]
    simp only [Process.start, htransaction]
    refine h.setThread ?_
    rw [BinderThread.InOrder, hqueue, List.filterMap_cons, horigin]
  | some transaction =>
    have horigin : delivery.origin = some transaction.origin := by
      rw [Delivery.origin, htransaction, Option.map_some]
    have hfront : (s.threads t).queue = transaction.origin :: unread.filterMap Delivery.origin := by
      rw [hqueue, List.filterMap_cons, horigin]
    simp only [Process.start, htransaction, hfront, stubDispatch]
    have hthread : BinderThread.InOrder ⟨unread, delivery :: (s.threads t).executing,
        unread.filterMap Delivery.origin⟩ := rfl
    refine ⟨(h.setThread hthread).inOrder, fun r hr => ?_⟩
    rcases List.mem_append.1 hr with hold | hnew
    · exact h.served r hold
    · rw [List.mem_singleton.1 hnew, Served.AsItself]

variable [DecidableEq Binder]

theorem Process.Ordered.next {s : Process Thread Binder} (h : s.Ordered) (e : BinderEvent Thread Binder) :
    (s.next e).Ordered := by
  cases e with
  | register target codes => exact ⟨h.inOrder, h.served⟩
  | finish t => exact h.setThread (h.inOrder t)
  | start t alive hasReply =>
    cases hunread : (s.threads t).unread with
    | nil => simpa only [Process.next, hunread] using h
    | cons delivery unread => simpa only [Process.next, hunread] using h.start hunread
  | ioctl t result alive r =>
    simp only [Process.next]
    split_ifs with hread
    · exact h
    · refine h.setThread ?_
      have hqueue := h.inOrder t
      rw [BinderThread.InOrder, not_not.1 (not_or.1 hread).1] at hqueue
      rw [BinderThread.InOrder, processBinderWriteRead_queue, hqueue]
      rfl

theorem run_ordered (events : List (BinderEvent Thread Binder)) :
    (Machine.run Process.next {} events).Ordered :=
  Machine.run_invariant (fun _ e h => h.next e) ⟨fun _ => rfl, nofun⟩

/-- Nothing is left in the queue of a thread that has started all its commands. -/
theorem queue_empty (events : List (BinderEvent Thread Binder)) (t : Thread)
    (h : ((Machine.run Process.next {} events).threads t).unread = []) :
    ((Machine.run Process.next {} events).threads t).queue = [] := by
  rw [(run_ordered events).inOrder t, h]
  rfl

/-- The stub serves every transaction with the origin recorded for it: with its own target and code, and
the interceptor is written only for root and the backdoor code. -/
theorem stub_serves_as_itself (events : List (BinderEvent Thread Binder)) :
    ∀ r ∈ (Machine.run Process.next {} events).served,
      r.dispatch = dispatch r.alive r.hasReply r.transaction.origin ∧
      (∀ target code, r.dispatch = .handle target code →
        target = r.transaction.cookie ∧ code = r.transaction.code) ∧
      (r.dispatch = .writeInterceptor →
        r.transaction.senderEuid = 0 ∧ r.transaction.code = kBackdoorCode) := by
  intro r hr
  have hown : r.dispatch = _ := (run_ordered events).served r hr
  exact ⟨hown, fun target code h => dispatch_origin_handle (hown ▸ h),
    fun h => dispatch_origin_writeInterceptor (hown ▸ h)⟩

/-! ## Two threads with nested executions -/

/-- A transaction of an app for the object 1. -/
def appTransaction (code : BitVec 32) : Command ℕ :=
  .transaction false { hasTarget := true, cookie := 1, code := code, senderEuid := 10001 }

def rootTransaction : Command ℕ :=
  .transaction true { hasTarget := true, cookie := 1, code := kBackdoorCode, senderEuid := 0 }

def reads (t : ℕ) (commands : List (Command ℕ)) : BinderEvent ℕ ℕ :=
  .ioctl t 0 (fun _ => true) { readBuffer := true, readSize := 256, commands := commands }

def startNext (t : ℕ) : BinderEvent ℕ ℕ := .start t (fun _ => true) true

/-- The thread 0 starts the second transaction of its read, and then one of another read, before the first
one has ended; meanwhile the thread 1 serves a read of its own. -/
def nestedReads : List (BinderEvent ℕ ℕ) :=
  [.register 1 [], reads 0 [appTransaction 5, .other 8, appTransaction 6], startNext 0, reads 1 [appTransaction 7],
    startNext 0, startNext 0, startNext 1, reads 0 [rootTransaction], startNext 0, .finish 0, .finish 1, .finish 0]

/-- A live object gets its transactions with their own codes. -/
theorem stub_serves_nestedReads :
    (Machine.run Process.next {} nestedReads).served.map Served.dispatch =
        [.handle 1 5, .handle 1 6, .handle 1 7, .writeInterceptor] ∧
      ∀ r ∈ (Machine.run Process.next {} nestedReads).served, r.transaction.code ≠ kBackdoorCode →
        r.dispatch = .handle r.transaction.cookie r.transaction.code := by
  have halive : ∀ r ∈ (Machine.run Process.next {} nestedReads).served,
      r.alive r.transaction.cookie = true := by decide
  refine ⟨by decide, fun r hr hcode => ?_⟩
  rw [(stub_serves_as_itself nestedReads r hr).1, dispatch_origin_of_alive hcode (halive r hr)]

end Native

end TrickyStore
