import TrickyStore.Lib.Buffer
import TrickyStore.Lib.Framed
import TrickyStore.Native.TransactionQueue

/-!
# The read buffer

`processBinderWriteRead` on the bytes that the driver returned.  Addresses count from `read_buffer`.  Every
access is checked against `read_consumed`, and `none` stands for one that goes beyond it.
-/

open Lib

namespace TrickyStore

namespace Native

namespace ReadBuffer

def BR_TRANSACTION : BitVec 32 := 0x80407202

def BR_TRANSACTION_SEC_CTX : BitVec 32 := 0x80487202

/-- `_IOC_SIZE`. -/
def iocSize (command : BitVec 32) : BitVec 32 := command >>> 16 &&& 0x3fff

/-- The size where it is compared with a count of bytes. -/
def commandSize (command : BitVec 32) : BitVec 64 := (iocSize command).setWidth 64

def isTransaction (command : BitVec 32) : Bool := command = BR_TRANSACTION_SEC_CTX || command = BR_TRANSACTION

/-- `binder_write_read` after the call, with the `read_size` bytes at `read_buffer`, of which the driver has
filled the first `read_consumed`. -/
structure BinderWriteRead where
  readBuffer : BitVec 64
  readSize : BitVec 64
  readConsumed : BitVec 64
  memory : List UInt8
  length_memory : memory.length = if readBuffer = 0 then 0 else readSize.toNat
  consumed_le : readConsumed.toNat ≤ memory.length

/-- The registrations by the address of their object and the weak references that can be taken, at the time of
the call for the record at an address, and the stub. -/
structure Surroundings where
  registry : ℕ → Registry (BitVec 64)
  attemptIncStrong : ℕ → BitVec 64 → Bool
  stubWeakRefs : BitVec 64
  stub : BitVec 64

/-- `handed` are the addresses that `processBinderTransaction` was called with. -/
structure ReadState where
  memory : List UInt8
  queue : List (TransactionOrigin (BitVec 64))
  handed : List ℕ

variable (env : Surroundings) (limit : ℕ)

def load32 (memory : List UInt8) (address : ℕ) : Option (BitVec 32) :=
  (load limit memory address 4).map (BitVec.ofNat 32)

def load64 (memory : List UInt8) (address : ℕ) : Option (BitVec 64) :=
  (load limit memory address 8).map (BitVec.ofNat 64)

/-- The writes to `target.ptr`, `cookie` and `code`. -/
def redirect (address : ℕ) (origin : TransactionOrigin (BitVec 64)) (s : ReadState) : Option ReadState := do
  let memory ← store limit s.memory address 8 env.stubWeakRefs.toNat
  let memory ← store limit memory (address + 8) 8 env.stub.toNat
  let memory ← store limit memory (address + 16) 4 kBackdoorCode.toNat
  return { s with memory, queue := s.queue ++ [origin] }

/-- `processBinderTransaction` on the record at the address. -/
def processBinderTransaction (address : ℕ) (s₀ : ReadState) : Option ReadState := do
  let s := { s₀ with handed := s₀.handed ++ [address] }
  let ptr ← load64 limit s.memory address
  if ptr = 0 then return s
  else do
    let code ← load32 limit s.memory (address + 16)
    let senderEuid ← load32 limit s.memory (address + 28)
    if code = kBackdoorCode ∧ senderEuid = 0 then redirect env limit address ⟨kBackdoorCode, none⟩ s
    else if code > kMaxUserTransactionCode then return s
    else if env.attemptIncStrong address ptr then do
      let cookie ← load64 limit s.memory (address + 8)
      if (env.registry address).shouldInterceptTransaction cookie code then
        redirect env limit address ⟨code, some cookie⟩ s
      else return s
    else return s

/-- The loop of `processBinderWriteRead`. -/
def processCommands (bufferPtr : ℕ) (remainingBytes : BitVec 64) (s : ReadState) : Option ReadState :=
  if remainingBytes > 0 then
    if hheader : remainingBytes < 4 then some s
    else do
      let command ← load32 limit s.memory bufferPtr
      if hpayload : remainingBytes - 4 < commandSize command then some s
      else do
        let s' ← (if isTransaction command then processBinderTransaction env limit (bufferPtr + 4) s else some s)
        processCommands (bufferPtr + 4 + (commandSize command).toNat) (remainingBytes - 4 - commandSize command) s'
  else some s
termination_by remainingBytes.toNat
decreasing_by bv_omega

def processBinderWriteRead (r : BinderWriteRead) (queue : List (TransactionOrigin (BitVec 64))) :
    Option ReadState :=
  let limit := r.readConsumed.toNat
  let s : ReadState := { memory := r.memory, queue, handed := [] }
  if r.readBuffer = 0 ∨ r.readSize = 0 ∨ r.readConsumed ≤ 4 then some s
  else do
    let firstCmd ← load32 limit s.memory 0
    if isTransaction firstCmd = false ∧ r.readConsumed = 4 + commandSize firstCmd then some s
    else processCommands env limit 0 r.readConsumed s

/-! ## Commands -/

/-- A command is its code and as many bytes as the code tells. -/
def commandFormat : FrameFormat UInt8 where
  headerLength := 4
  payloadLength := fun header => (commandSize (BitVec.ofNat 32 (ofLittleEndian header))).toNat
  headerLength_pos := Nat.zero_lt_succ 3

abbrev RawCommand := Frame commandFormat

def code (command : RawCommand) : BitVec 32 := BitVec.ofNat 32 (ofLittleEndian command.header)

/-- The addresses of the transactions among the commands. -/
def transactionsFrom (address : ℕ) : List RawCommand → List ℕ
  | [] => []
  | command :: rest =>
    (if isTransaction (code command) then [address + 4] else []) ++
      transactionsFrom (address + command.encoded.length) rest

/-- A field of the record that starts here. -/
def field (record : List UInt8) (offset n : ℕ) : ℕ := ofLittleEndian ((record.drop offset).take n)

def targetPtr (record : List UInt8) : BitVec 64 := BitVec.ofNat 64 (field record 0 8)

/-- What `processBinderTransaction` reads of a record. -/
def transactionData (record : List UInt8) : BinderTransactionData (BitVec 64) where
  hasTarget := targetPtr record ≠ 0
  cookie := BitVec.ofNat 64 (field record 8 8)
  code := BitVec.ofNat 32 (field record 16 4)
  senderEuid := BitVec.ofNat 32 (field record 28 4)

/-- What is pushed for the record at the address, if it is redirected. -/
def originOf (memory : List UInt8) (address : ℕ) : Option (TransactionOrigin (BitVec 64)) :=
  let record := memory.drop address
  (Native.processBinderTransaction (env.registry address)
    (fun _ => env.attemptIncStrong address (targetPtr record)) (transactionData record)).2

/-- The command as the hook understands it. -/
def toCommand (command : RawCommand) : Command (BitVec 64) :=
  if isTransaction (code command) then
    .transaction (code command = BR_TRANSACTION_SEC_CTX) (transactionData command.payload)
  else .other (commandSize (code command)).toNat

end ReadBuffer

end Native

end TrickyStore
