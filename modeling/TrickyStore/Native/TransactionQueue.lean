import TrickyStore.Lib.Machine
import TrickyStore.Native.BinderStub
import Mathlib.Data.BitVec
import Mathlib.Logic.Function.Basic

/-!
# Redirected transactions and the queue of their origins

The hook of `ioctl` looks at every command that the driver returns and rewrites the transactions that
are to be intercepted, so that libbinder executes them on the stub.  Their code and target travel in a
queue of the thread.  libbinder starts the commands of a read in order, possibly nested in the execution
of earlier ones, and reads again only when all of them have started.
-/

open Lib

namespace TrickyStore

namespace Native

def kBackdoorCode : BitVec 32 := 0xdeadbeef

def kMaxUserTransactionCode : BitVec 32 := 0x00ffffff

/-- What a command can be addressed to once the hook has seen it.  The driver does not know the stub. -/
inductive LocalBinder (Binder : Type) where
  | stub
  | original (b : Binder)
deriving DecidableEq, Repr

/-- `binder_transaction_data`, where the weak reference at `target.ptr` belongs to the object at the cookie. -/
structure BinderTransactionData (Cookie : Type) where
  hasTarget : Bool
  cookie : Cookie
  code : BitVec 32
  senderEuid : BitVec 32
deriving DecidableEq, Repr

/-- A command of the read buffer: `BR_TRANSACTION`, the same with a security context, or another one of
some size. -/
inductive Command (Cookie : Type) where
  | transaction (secCtx : Bool) (data : BinderTransactionData Cookie)
  | other (size : ℕ)
deriving DecidableEq, Repr

/-- `ThreadTransactionInfo` with the code and the weak reference. -/
structure TransactionOrigin (Binder : Type) where
  transactionCode : BitVec 32
  targetBinder : Option Binder
deriving DecidableEq, Repr

/-- The codes of each registration; an empty list is all of them. -/
abbrev Registry (Binder : Type) := Binder → Option (List (BitVec 32))

variable {Binder : Type}

def Registry.shouldInterceptTransaction (registry : Registry Binder) (target : Binder) (code : BitVec 32) : Bool :=
  match registry target with
  | none => false
  | some codes => codes.isEmpty || codes.contains code

/-- The command is left alone. -/
def BinderTransactionData.untouched (data : BinderTransactionData Binder) :
    BinderTransactionData (LocalBinder Binder) :=
  { data with cookie := .original data.cookie }

def BinderTransactionData.redirected (data : BinderTransactionData Binder) :
    BinderTransactionData (LocalBinder Binder) :=
  { data with cookie := .stub, code := kBackdoorCode }

/-- `processBinderTransaction`: what libbinder will see, and what is pushed.  `alive` tells whether the
weak reference can be taken. -/
def processBinderTransaction (registry : Registry Binder) (alive : Binder → Bool)
    (data : BinderTransactionData Binder) :
    BinderTransactionData (LocalBinder Binder) × Option (TransactionOrigin Binder) :=
  if !data.hasTarget then (data.untouched, none)
  else if data.code = kBackdoorCode ∧ data.senderEuid = 0 then
    (data.redirected, some ⟨kBackdoorCode, none⟩)
  else if data.code > kMaxUserTransactionCode then (data.untouched, none)
  else if alive data.cookie && registry.shouldInterceptTransaction data.cookie data.code then
    (data.redirected, some ⟨data.code, some data.cookie⟩)
  else (data.untouched, none)

/-- A command as the driver returned it, and as libbinder gets it. -/
structure Delivery (Binder : Type) where
  returned : Command Binder
  delivered : Command (LocalBinder Binder)
deriving DecidableEq, Repr

/-- The transaction that a command addressed to the stub was made from. -/
def Delivery.onStub (d : Delivery Binder) : Option (BinderTransactionData Binder) :=
  match d.delivered, d.returned with
  | .transaction _ { cookie := .stub, .. }, .transaction _ data => some data
  | _, _ => none

def Command.untouched : Command Binder → Command (LocalBinder Binder)
  | .transaction secCtx data => .transaction secCtx data.untouched
  | .other size => .other size

/-- One turn of the loop over the buffer. -/
def processCommand (registry : Registry Binder) (alive : Binder → Bool) :
    Command Binder → Delivery Binder × Option (TransactionOrigin Binder)
  | .transaction secCtx data =>
    let (data', origin) := processBinderTransaction registry alive data
    (⟨.transaction secCtx data, .transaction secCtx data'⟩, origin)
  | .other size => (⟨.other size, .other size⟩, none)

def processCommands (registry : Registry Binder) (alive : Binder → Bool) (commands : List (Command Binder))
    (queue : List (TransactionOrigin Binder)) : List (Delivery Binder) × List (TransactionOrigin Binder) :=
  match commands with
  | [] => ([], queue)
  | command :: rest =>
    let (delivery, origin) := processCommand registry alive command
    let (deliveries, queue') := processCommands registry alive rest (queue ++ origin.toList)
    (delivery :: deliveries, queue')

/-- `_IOC_SIZE` of a command. -/
def Command.size {Cookie : Type} : Command Cookie → ℕ
  | .transaction secCtx _ => if secCtx then 72 else 64
  | .other size => size

/-- `binder_write_read` after the call. -/
structure BinderWriteRead (Binder : Type) where
  readBuffer : Bool
  readSize : ℕ
  commands : List (Command Binder)

def BinderWriteRead.readConsumed (r : BinderWriteRead Binder) : ℕ :=
  (r.commands.map fun command => 4 + command.size).sum

/-- A buffer with one command that is no transaction. -/
def BinderWriteRead.isLoneOther (r : BinderWriteRead Binder) : Bool :=
  match r.commands.head? with
  | some (.other size) => r.readConsumed = 4 + size
  | _ => false

/-- `processBinderWriteRead`. -/
def processBinderWriteRead (registry : Registry Binder) (alive : Binder → Bool) (r : BinderWriteRead Binder)
    (queue : List (TransactionOrigin Binder)) : List (Delivery Binder) × List (TransactionOrigin Binder) :=
  if !r.readBuffer || r.readSize = 0 || r.readConsumed ≤ 4 || r.isLoneOther then
    (r.commands.map fun command => ⟨command, command.untouched⟩, queue)
  else processCommands registry alive r.commands queue

/-! ## The stub -/

/-- What the stub does with a transaction. -/
inductive Dispatch (Binder : Type) where
  | unknownTransaction
  | writeInterceptor
  | handle (target : Binder) (code : BitVec 32)
  | deadObject
deriving DecidableEq, Repr

def dispatch (alive : Binder → Bool) (hasReply : Bool) (origin : TransactionOrigin Binder) : Dispatch Binder :=
  if origin.targetBinder = none ∧ origin.transactionCode = kBackdoorCode ∧ hasReply then .writeInterceptor
  else match origin.targetBinder with
    | some target => if alive target then .handle target origin.transactionCode else .deadObject
    | none => .deadObject

/-- The head of `BinderStub::onTransact`: the front of the queue is taken. -/
def stubDispatch (alive : Binder → Bool) (hasReply : Bool) :
    List (TransactionOrigin Binder) → Dispatch Binder × List (TransactionOrigin Binder)
  | [] => (.unknownTransaction, [])
  | origin :: queue => (dispatch alive hasReply origin, queue)

/-! ## Threads -/

/-- A thread: the commands of its last read that have not started, those that are being executed, the
innermost first, and its queue. -/
structure BinderThread (Binder : Type) where
  unread : List (Delivery Binder) := []
  executing : List (Delivery Binder) := []
  queue : List (TransactionOrigin Binder) := []

/-- A transaction that the stub was called with. -/
structure Served (Thread Binder : Type) where
  thread : Thread
  transaction : BinderTransactionData Binder
  alive : Binder → Bool
  hasReply : Bool
  dispatch : Dispatch Binder

structure Process (Thread Binder : Type) where
  registry : Registry Binder := fun _ => none
  threads : Thread → BinderThread Binder := fun _ => {}
  served : List (Served Thread Binder) := []

/-- What happens in the process.  Which weak references can be taken is up to the moment. -/
inductive BinderEvent (Thread Binder : Type) where
  /-- `handleRegisterInterceptor` -/
  | register (target : Binder) (codes : List (BitVec 32))
  /-- a call of `ioctl` by the thread, with its result -/
  | ioctl (t : Thread) (result : Int) (alive : Binder → Bool) (r : BinderWriteRead Binder)
  /-- the thread starts the next command -/
  | start (t : Thread) (alive : Binder → Bool) (hasReply : Bool)
  /-- the innermost execution ends -/
  | finish (t : Thread)

variable {Thread : Type} [DecidableEq Thread] [DecidableEq Binder]

def Process.setThread (s : Process Thread Binder) (t : Thread) (thread : BinderThread Binder) :
    Process Thread Binder :=
  { s with threads := Function.update s.threads t thread }

/-- The command is executed by the object that it is addressed to. -/
def Process.start (s : Process Thread Binder) (t : Thread) (alive : Binder → Bool) (hasReply : Bool)
    (delivery : Delivery Binder) (unread : List (Delivery Binder)) : Process Thread Binder :=
  let thread := { s.threads t with unread, executing := delivery :: (s.threads t).executing }
  match delivery.onStub with
  | some transaction =>
    let (dispatch, queue) := stubDispatch alive hasReply thread.queue
    { s.setThread t { thread with queue } with
      served := s.served ++ [{ thread := t, transaction, alive, hasReply, dispatch }] }
  | none => s.setThread t thread

/-- A thread that has commands left does not read. -/
def Process.next (s : Process Thread Binder) : BinderEvent Thread Binder → Process Thread Binder
  | .register target codes => { s with registry := Function.update s.registry target (some codes) }
  | .ioctl t result alive r =>
    let thread := s.threads t
    if thread.unread ≠ [] ∨ result < 0 then s
    else
      let (unread, queue) := processBinderWriteRead s.registry alive r thread.queue
      s.setThread t { thread with unread, queue }
  | .start t alive hasReply =>
    match (s.threads t).unread with
    | [] => s
    | delivery :: unread => s.start t alive hasReply delivery unread
  | .finish t => s.setThread t { s.threads t with executing := (s.threads t).executing.tail }

end Native

end TrickyStore
