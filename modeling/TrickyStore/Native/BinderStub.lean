import TrickyStore.Lib.Logged

/-!
# The native side of an intercepted transaction

`BinderStub::onTransact` and `BinderInterceptor::handleInterceptedTransaction`.  Every read, write,
append and interceptor call may fail; which ones do is given by `Outcomes`.  What matters here is
which calls of the original target were made and when the interceptor had decided to override the
reply, so these two are logged.
-/

open Lib

namespace TrickyStore

namespace Native

def kActionSkip : Int := 1
def kActionContinue : Int := 2
def kActionOverrideReply : Int := 3
def kActionOverrideData : Int := 4

/-- The operations checked by `VALIDATE_STATUS`, in the order of the code. -/
inductive Point where
  | writePreTarget
  | writePreCode
  | writePreFlags
  | writePreCallingUid
  | writePreCallingPid
  | writePreDataSize
  | appendPreData
  | preTransact
  | readPreAction
  | appendOverrideReply
  | appendOverrideData
  | appendRequest
  | writePostTarget
  | writePostCode
  | writePostFlags
  | writePostCallingUid
  | writePostCallingPid
  | writePostResult
  | writePostDataSize
  | appendPostData
  | writeReplySize
  | appendPostReply
  | postTransact
  | readPostAction
  | appendNewReply
deriving DecidableEq, Repr

/-- The weak reference in the thread's queue. -/
inductive TargetBinder where
  | null
  | dead
  | alive
deriving DecidableEq, Repr

structure ThreadTransactionInfo where
  isBackdoorCode : Bool
  targetBinder : TargetBinder
deriving DecidableEq, Repr

/-- One transaction: the queued entry it is taken for, whether the client wants a reply, the actions
the interceptor answers, the size of the real reply, and which operations succeed. -/
structure Outcomes where
  queued : Option ThreadTransactionInfo
  hasReply : Bool
  registered : Bool
  preAction : Int
  replySize : ℕ
  postAction : Int
  ok : Point → Bool

/-- `overrideDecided` marks the moment at which the pre-hook's answer turned out to be an override
of the reply, `targetTransact` a call of the original target. -/
inductive Step where
  | overrideDecided
  | targetTransact
deriving DecidableEq, Repr

variable (o : Outcomes)

def writeInterceptorCallData : Logged Step Unit :=
  .validateAll [o.ok .writePreTarget, o.ok .writePreCode, o.ok .writePreFlags,
    o.ok .writePreCallingUid, o.ok .writePreCallingPid, o.ok .writePreDataSize, o.ok .appendPreData]

def validAction (action : Int) : Bool :=
  action = kActionSkip || action = kActionContinue || action = kActionOverrideReply ||
    action = kActionOverrideData

/-- `validateInterceptorResponse`: the action must be readable and known. -/
def validateInterceptorResponse (read : Point) (action : Int) : Logged Step Unit :=
  .validateAll [o.ok read, validAction action]

/-- The part of the function after the real call. -/
def postPart : Logged Step Bool := do
  .validateAll [o.ok .writePostTarget, o.ok .writePostCode, o.ok .writePostFlags,
    o.ok .writePostCallingUid, o.ok .writePostCallingPid, o.ok .writePostResult,
    o.ok .writePostDataSize, o.ok .appendPostData, o.ok .writeReplySize]
  .validateIf (o.hasReply && o.replySize > 0) (o.ok .appendPostReply)
  .validate (o.ok .postTransact)
  validateInterceptorResponse o .readPostAction o.postAction
  .validateIf (o.postAction = kActionOverrideReply && o.hasReply) (o.ok .appendNewReply)
  return true

/-- The real call, with the request or the data of the interceptor. -/
def realCall (copied : Bool) : Logged Step Bool := do
  .validate copied
  .record .targetTransact
  postPart o

/-- Giving up stands for the `false` of the error macro. -/
def handleInterceptedTransaction : Logged Step Bool := do
  .validate o.registered
  writeInterceptorCallData o
  .validate (o.ok .preTransact)
  validateInterceptorResponse o .readPreAction o.preAction
  if o.preAction = kActionSkip then
    return false
  else if o.preAction = kActionOverrideReply then
    .record .overrideDecided
    .validateIf o.hasReply (o.ok .appendOverrideReply)
    return true
  else if o.preAction = kActionOverrideData then
    realCall o (o.ok .appendOverrideData)
  else
    realCall o (o.ok .appendRequest)

/-- `BinderStub::onTransact`, as the log of what it did. -/
def onTransact : List Step :=
  match o.queued with
  | none => []
  | some info =>
    if info.targetBinder = .null ∧ info.isBackdoorCode ∧ o.hasReply then []
    else if info.targetBinder = .alive then
      match (handleInterceptedTransaction o).run [] with
      | (some true, log) => log
      -- forwarding to the original binder
      | (_, log) => log ++ [.targetTransact]
    else []

/-! ## What the log can be -/

/-- The pre-hook was asked and gave a usable answer. -/
def answered : Bool :=
  o.registered && [o.ok .writePreTarget, o.ok .writePreCode, o.ok .writePreFlags,
    o.ok .writePreCallingUid, o.ok .writePreCallingPid, o.ok .writePreDataSize,
    o.ok .appendPreData].all id && o.ok .preTransact && [o.ok .readPreAction,
    validAction o.preAction].all id

/-- The pre-hook decided to override the reply. -/
def overrides : Bool := answered o && o.preAction = kActionOverrideReply

/-- The override's reply reaches the client's parcel. -/
def overrideCopied : Bool := !o.hasReply || o.ok .appendOverrideReply

/-- The interceptor had the function call the target. -/
def callsTarget : Bool :=
  answered o && o.preAction ≠ kActionSkip && o.preAction ≠ kActionOverrideReply &&
    if o.preAction = kActionOverrideData then o.ok .appendOverrideData else o.ok .appendRequest

/-- Every operation after the real call succeeds. -/
def postSucceeds : Bool :=
  [o.ok .writePostTarget, o.ok .writePostCode, o.ok .writePostFlags,
    o.ok .writePostCallingUid, o.ok .writePostCallingPid, o.ok .writePostResult,
    o.ok .writePostDataSize, o.ok .appendPostData, o.ok .writeReplySize].all id &&
    (!(o.hasReply && o.replySize > 0) || o.ok .appendPostReply) && o.ok .postTransact &&
    [o.ok .readPostAction, validAction o.postAction].all id &&
    (!(o.postAction = kActionOverrideReply && o.hasReply) || o.ok .appendNewReply)

theorem postPart_run (log : List Step) :
    (postPart o).run log = (if postSucceeds o then some true else none, log) := by
  have h : postPart o = (Logged.validate (postSucceeds o) >>= fun _ => pure true) := by
    simp only [postPart, postSucceeds, validateInterceptorResponse, Logged.validateAll_eq,
      Logged.validateIf_eq, Logged.validate_validate, Bool.and_assoc]
  rw [h, Logged.run_validate_bind]
  split_ifs <;> rfl

theorem realCall_run (copied : Bool) (log : List Step) :
    (realCall o copied).run log =
      if copied then (if postSucceeds o then some true else none, log ++ [.targetTransact])
      else (none, log) := by
  simp only [realCall, Logged.run_validate_bind, Logged.run_record_bind, postPart_run]

/-- The function up to the interceptor's answer is one check. -/
theorem handleInterceptedTransaction_run :
    (handleInterceptedTransaction o).run [] =
      if !answered o then (none, [])
      else if o.preAction = kActionSkip then (some false, [])
      else if o.preAction = kActionOverrideReply then
        (if overrideCopied o then some true else none, [.overrideDecided])
      else if callsTarget o then
        (if postSucceeds o then some true else none, [.targetTransact])
      else (none, []) := by
  have h (x : Logged Step Bool) :
      (do
        .validate o.registered
        writeInterceptorCallData o
        .validate (o.ok .preTransact)
        validateInterceptorResponse o .readPreAction o.preAction
        x) = (Logged.validate (answered o) >>= fun _ => x) := by
    simp only [writeInterceptorCallData, validateInterceptorResponse, Logged.validateAll_eq,
      Logged.validate_validate, answered, Bool.and_assoc]
  unfold handleInterceptedTransaction
  rw [h, Logged.run_validate_bind]
  cases ha : answered o with
  | false => rfl
  | true =>
    simp only [if_true, Bool.not_true, Bool.false_eq_true, if_false, callsTarget, ha,
      Bool.true_and]
    split_ifs <;> simp_all [realCall_run, Logged.validateIf_eq, Logged.run_validate_bind,
      overrideCopied]

end Native

end TrickyStore
