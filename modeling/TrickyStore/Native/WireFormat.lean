import TrickyStore.Model.ByteParcel

/-!
# The wire between the native hook and the interceptor

`handleInterceptedTransaction` of the native side packs a transaction into a parcel for the pre-hook
and one for the post-hook of the Kotlin `BinderInterceptor`, and reads the answers back.  Both sides are
kept in step by hand: there are no tags, only the order of the fields and moves of the cursor.
-/

open Lib

namespace TrickyStore

open ByteParcel

/-- What both sides say about a transaction besides its parcels. -/
structure TransactionHeader (Binder : Type) where
  target : Binder
  code : BitVec 32
  flags : BitVec 32
  callingUid : BitVec 32
  callingPid : BitVec 32
deriving DecidableEq, Repr

/-- The arguments of `onPreTransact`. -/
structure PreCall (Binder : Type) where
  header : TransactionHeader Binder
  data : Bytes
deriving DecidableEq, Repr

/-- The arguments of `onPostTransact`. -/
structure PostCall (Binder : Type) where
  header : TransactionHeader Binder
  data : Bytes
  reply : Option Bytes
  resultCode : BitVec 32
deriving DecidableEq, Repr

variable {Binder : Type} (B : BinderFormat Binder)

/-! ## The native writers and the native reader -/

namespace Native.Wire

def kPreTransact : BitVec 32 := 1
def kPostTransact : BitVec 32 := 2

variable (header : TransactionHeader Binder) (request : ByteParcel)

def writeInterceptorCallData : ParcelM Unit := do
  B.writeStrongBinder header.target
  writeInt header.code
  writeInt header.flags
  writeInt header.callingUid
  writeInt header.callingPid
  writeLong (.ofNat 64 request.dataSize)
  appendFrom request 0 request.dataSize

/-- The parcel of the post-hook; without a reply parcel its size is zero. -/
def writePostCallData (result : BitVec 32) (reply : Option ByteParcel) : ParcelM Unit := do
  B.writeStrongBinder header.target
  writeInt header.code
  writeInt header.flags
  writeInt header.callingUid
  writeInt header.callingPid
  writeInt result
  writeLong (.ofNat 64 request.dataSize)
  appendFrom request 0 request.dataSize
  let replySize := (reply.map dataSize).getD 0
  writeLong (.ofNat 64 replySize)
  match reply with
  | some reply => if replySize > 0 then appendFrom reply 0 replySize else pure ()
  | none => pure ()

/-- The action is read with its status and must be one of the four known ones. -/
def readAction : ParcelM (BitVec 32) := do
  let action ← readIntStatus
  if action = 1 ∨ action = 2 ∨ action = 3 ∨ action = 4 then return action else StateT.lift none

/-- The rest of an override: the status, and the reply appended to the client's parcel if it has one. -/
def readOverrideReply (reply : Option ByteParcel) : ParcelM (BitVec 32 × Option ByteParcel) := do
  let result ← readInt
  match reply with
  | none => return (result, none)
  | some reply => do
    let size ← readLong
    let response ← get
    let (_, reply') ← StateT.lift (appendFrom response response.dataPosition size.toNat reply)
    return (result, some reply')

/-- The request that the interceptor wants instead. -/
def readOverrideData : ParcelM ByteParcel := do
  let size ← readLong
  let response ← get
  let (_, request) ← StateT.lift (appendFrom response response.dataPosition size.toNat {})
  return request

end Native.Wire

/-! ## The Kotlin readers and the Kotlin writer -/

namespace BinderInterceptor

/-- `Result`, with the reply parcel of an override as its bytes. -/
inductive Result where
  | Skip
  | Continue
  | OverrideReply (code : BitVec 32) (reply : Bytes)
deriving DecidableEq, Repr

def RESULT_SKIP : BitVec 32 := 1
def RESULT_CONTINUE : BitVec 32 := 2
def RESULT_OVERRIDE_REPLY : BitVec 32 := 3

def readHeader : ParcelM (TransactionHeader Binder) := do
  let target ← B.readStrongBinder
  let code ← readInt
  let flags ← readInt
  let callingUid ← readInt
  let callingPid ← readInt
  return { target, code, flags, callingUid, callingPid }

/-- A fresh parcel with `size` bytes from the cursor on, which stays where it is. -/
def copyFromCursor (size : BitVec 32) : ParcelM Bytes := do
  let data ← get
  let position ← dataPositionInt
  let (_, copy) ← StateT.lift (appendFromInt data position size {})
  return copy.data

/-- What `handlePreTransact` calls `onPreTransact` with. -/
def readPreCall : ParcelM (PreCall Binder) := do
  let header ← readHeader B
  let dataSize ← readLong
  let transactionData ← copyFromCursor (dataSize.setWidth 32)
  return { header, data := transactionData }

/-- What `handlePostTransact` calls `onPostTransact` with. -/
def readPostCall : ParcelM (PostCall Binder) := do
  let header ← readHeader B
  let resultCode ← readInt
  let dataSize := (← readLong).setWidth 32
  let transactionData ← copyFromCursor dataSize
  let position ← dataPositionInt
  setDataPosition (position + dataSize)
  let replySize := (← readLong).setWidth 32
  let reply ← if replySize.toInt > 0 then some <$> copyFromCursor replySize else pure none
  return { header, data := transactionData, reply, resultCode }

/-- An exception of the handler counts as `Skip`. -/
def handlePreTransact (onPreTransact : PreCall Binder → Result) (data : ByteParcel) : Result :=
  ((readPreCall B data).map fun call => onPreTransact call.1).getD .Skip

def handlePostTransact (onPostTransact : PostCall Binder → Result) (data : ByteParcel) : Result :=
  ((readPostCall B data).map fun call => onPostTransact call.1).getD .Skip

def writeResultToReply : Result → ParcelM Unit
  | .Skip => writeInt RESULT_SKIP
  | .Continue => writeInt RESULT_CONTINUE
  | .OverrideReply code reply => do
    writeInt RESULT_OVERRIDE_REPLY
    writeInt code
    writeLong ((BitVec.ofNat 32 reply.length).signExtend 64)
    appendFromInt ⟨reply, 0⟩ 0 (.ofNat 32 reply.length)

/-- The reply of the interceptor's binder to one of the two calls. -/
def onTransact (onPreTransact : PreCall Binder → Result) (onPostTransact : PostCall Binder → Result)
    (code : BitVec 32) (data : ByteParcel) : ByteParcel :=
  let result :=
    if code = Native.Wire.kPreTransact then handlePreTransact B onPreTransact data
    else handlePostTransact B onPostTransact data
  ((writeResultToReply result {}).map Prod.snd).getD ⟨littleEndian 4 RESULT_SKIP.toNat, 4⟩

end BinderInterceptor

/-! ## The native function -/

namespace Native.Wire

open TrickyStore.BinderInterceptor

/-- `handleInterceptedTransaction` over bytes.  `interceptor` is a call of the interceptor's binder and
`target` one of the original target, which gets the request, for the status and the reply; `none` is the
answer `false`. -/
def handleInterceptedTransaction (interceptor : BitVec 32 → ByteParcel → Option ByteParcel)
    (target : Bytes → BitVec 32 × ByteParcel) (hasReply : Bool) (header : TransactionHeader Binder)
    (request : ByteParcel) : Option (BitVec 32 × Option ByteParcel) := do
  let (_, preRequest) ← writeInterceptorCallData B header request {}
  let preResponse ← interceptor kPreTransact preRequest
  let (preAction, preResponse) ← readAction ⟨preResponse.data, 0⟩
  if preAction = 1 then none
  else if preAction = 3 then
    (readOverrideReply (if hasReply then some {} else none) preResponse).map Prod.fst
  else
    let modified ←
      if preAction = 4 then (readOverrideData preResponse).map Prod.fst
      else (appendFrom request 0 request.dataSize {}).map Prod.snd
    let (result, targetReply) := target modified.data
    let reply := if hasReply then some targetReply else none
    let (_, postRequest) ← writePostCallData B header request result reply {}
    let postResponse ← interceptor kPostTransact postRequest
    let (postAction, postResponse) ← readAction ⟨postResponse.data, 0⟩
    if postAction = 3 then
      (readOverrideReply (if hasReply then some {} else none) postResponse).map Prod.fst
    else some (result, reply)

end Native.Wire

end TrickyStore
