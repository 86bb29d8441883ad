import TrickyStore.Native.WireFormat

/-!
# What is written on the wire is read from it

The readers and writers of both sides move through the same fields, so they are followed field by field
over a parcel that is split at its cursor.  The one move that depends on a size is the Kotlin
post-hook's step over the request, which is computed with ints.
-/

open Lib

namespace TrickyStore

open ByteParcel

/-! ## Parcels split at the cursor -/

namespace ByteParcel

/-- The bytes before the cursor, and those from the cursor on. -/
def split (front rest : Bytes) : ByteParcel := ⟨front ++ rest, front.length⟩

variable {front rest w : Bytes} {n : ℕ}

/-- A parcel that was written is read from its start. -/
theorem split_rewound : (⟨(split front []).data, 0⟩ : ByteParcel) = split [] front := by
  simp [split]

theorem run_bind {α β : Type} {x : ParcelM α} {f : α → ParcelM β} {p p' : ByteParcel} {a : α}
    (h : x p = some (a, p')) : (x >>= f) p = f a p' := by
  show (x p).bind (fun q => f q.1 q.2) = _
  rw [h, Option.bind_some]

theorem run_bind_none {α β : Type} {x : ParcelM α} {f : α → ParcelM β} {p : ByteParcel}
    (h : x p = none) : (x >>= f) p = none := by
  show (x p).bind (fun q => f q.1 q.2) = _
  rw [h, Option.bind_none]

theorem run_get {β : Type} {f : ByteParcel → ParcelM β} {p : ByteParcel} : (get >>= f) p = f p p := rfl

theorem run_lift {α β : Type} {x : Option α} {f : α → ParcelM β} {p : ByteParcel} {a : α}
    (h : x = some a) : (StateT.lift x >>= f) p = f a p := by
  subst h
  rfl

theorem write_split : write w (split front []) = some ((), split (front ++ w) []) := by
  simp [write, split]

theorem read_split (h : w.length = n) :
    read n (split front (w ++ rest)) = some (w, split (front ++ w) rest) := by
  subst h
  simp [read, split, dataSize]

theorem appendFrom_split {source : ByteParcel} (h : source.dataSize < 2 ^ 31) :
    appendFrom source 0 source.dataSize (split front []) = some ((), split (front ++ source.data) []) := by
  rw [appendFrom, if_neg (by unfold INT32_MAX; omega)]
  split_ifs with hzero hsize
  · rw [List.length_eq_zero_iff.1 hzero, List.append_nil]
  · rw [List.drop_zero, dataSize, List.take_length, write_split]
  · omega

/-- Bytes copied from the cursor of another parcel. -/
theorem appendFrom_behind (h : w.length < 2 ^ 31) :
    appendFrom (split front (w ++ rest)) front.length w.length {} = some ((), split w []) := by
  rw [appendFrom, if_neg (by unfold INT32_MAX; omega)]
  split_ifs with hzero hsize
  · rw [List.length_eq_zero_iff.1 hzero]
    rfl
  · simp [split, write]
  · exact absurd (by simp [split, dataSize]) hsize

theorem appendFrom_end (front : Bytes) (h : w.length < 2 ^ 31) :
    appendFrom (split front w) (split front w).dataPosition w.length {} = some ((), split w []) := by
  have hcopy : appendFrom (split front (w ++ [])) front.length w.length {} = _ := appendFrom_behind h
  rwa [List.append_nil] at hcopy

theorem readIntStatus_split (v : BitVec 32) :
    readIntStatus (split front (littleEndian 4 v.toNat ++ rest)) =
      some (v, split (front ++ littleEndian 4 v.toNat) rest) := by
  have hvalue : BitVec.ofNat 32 (ofLittleEndian (littleEndian 4 v.toNat)) = v := by
    rw [ofLittleEndian_littleEndian v.isLt, BitVec.ofNat_toNat, BitVec.setWidth_eq]
  rw [readIntStatus, run_bind (read_split (length_littleEndian _ _)), hvalue]
  rfl

theorem readInt_split (v : BitVec 32) :
    readInt (split front (littleEndian 4 v.toNat ++ rest)) =
      some (v, split (front ++ littleEndian 4 v.toNat) rest) := by
  rw [readInt, readIntStatus_split]
  rfl

theorem readLong_split (v : BitVec 64) :
    readLong (split front (littleEndian 8 v.toNat ++ rest)) =
      some (v, split (front ++ littleEndian 8 v.toNat) rest) := by
  have hvalue : BitVec.ofNat 64 (ofLittleEndian (littleEndian 8 v.toNat)) = v := by
    rw [ofLittleEndian_littleEndian v.isLt, BitVec.ofNat_toNat, BitVec.setWidth_eq]
  unfold readLong
  rw [run_bind (read_split (length_littleEndian _ _)), hvalue]
  rfl

theorem setWidth_size (n : ℕ) : (BitVec.ofNat 64 n).setWidth 32 = BitVec.ofNat 32 n := by
  refine BitVec.eq_of_toNat_eq ?_
  rw [BitVec.toNat_setWidth, BitVec.toNat_ofNat, BitVec.toNat_ofNat]
  omega

theorem toSize_ofNat (h : n < 2 ^ 32) :
    toSize (BitVec.ofNat 32 n) = if n < 2 ^ 31 then n else 2 ^ 64 - 2 ^ 32 + n := by
  have hmsb : (BitVec.ofNat 32 n).msb = decide (2 ^ 31 ≤ n) := by
    rw [BitVec.msb_eq_decide, BitVec.toNat_ofNat, Nat.mod_eq_of_lt h]
  rw [toSize, BitVec.toNat_signExtend, hmsb, BitVec.toNat_setWidth, BitVec.toNat_ofNat]
  simp only [decide_eq_true_eq]
  split_ifs <;> omega

theorem toSize_int (h : n < 2 ^ 31) : toSize (BitVec.ofNat 32 n) = n := by
  rw [toSize_ofNat (by omega), if_pos h]

theorem copyFromCursor_eq (size : BitVec 32) (p : ByteParcel) :
    BinderInterceptor.copyFromCursor size p =
      (appendFromInt p (.ofNat 32 p.dataPosition) size {}).map fun r => (r.2.data, p) := by
  unfold BinderInterceptor.copyFromCursor
  rw [run_get, run_bind (rfl : dataPositionInt p = some (.ofNat 32 p.dataPosition, p))]
  cases h : appendFromInt p (.ofNat 32 p.dataPosition) size {} with
  | none => exact run_bind_none rfl
  | some r => exact run_lift rfl

/-- The copy takes the bytes behind a cursor that is an int. -/
theorem copyFromCursor_split (h : w.length < 2 ^ 31) (hfront : front.length < 2 ^ 31) :
    BinderInterceptor.copyFromCursor (.ofNat 32 w.length) (split front (w ++ rest)) =
      some (w, split front (w ++ rest)) := by
  rw [copyFromCursor_eq]
  show (appendFromInt _ (.ofNat 32 front.length) _ _).map _ = _
  rw [appendFromInt, toSize_int hfront, toSize_int h, appendFrom_behind h, Option.map_some]
  simp [split]

theorem copyFromCursor_end (h : w.length < 2 ^ 31) (hfront : front.length < 2 ^ 31) :
    BinderInterceptor.copyFromCursor (.ofNat 32 w.length) (split front w) = some (w, split front w) := by
  have hcopy : BinderInterceptor.copyFromCursor (.ofNat 32 w.length) (split front (w ++ [])) = _ :=
    copyFromCursor_split h hfront
  rwa [List.append_nil] at hcopy

/-- Behind a cursor that is no int there is nothing to copy. -/
theorem copyFromCursor_far (h : w.length < 2 ^ 31) (hne : w ≠ []) (hfront : 2 ^ 31 ≤ front.length)
    (hsize : front.length < 2 ^ 32) :
    BinderInterceptor.copyFromCursor (.ofNat 32 w.length) (split front w) = none := by
  rw [copyFromCursor_eq]
  show (appendFromInt _ (.ofNat 32 front.length) _ _).map _ = _
  have hpos : w.length ≠ 0 := fun h0 => hne (List.length_eq_zero_iff.1 h0)
  rw [appendFromInt, toSize_ofNat hsize, toSize_int h,
    if_neg hfront.not_gt, appendFrom, if_neg (by unfold INT32_MAX; omega), if_neg hpos, if_neg]
  · rfl
  · simp only [split, dataSize, List.length_append]
    omega

/-- The step over the bytes behind the cursor is computed with ints. -/
theorem setDataPosition_split (hfront : front.length < 2 ^ 31) (h : w.length < 2 ^ 31) :
    setDataPosition (.ofNat 32 front.length + .ofNat 32 w.length) (split front (w ++ rest)) =
      if front.length + w.length < 2 ^ 31 then some ((), split (front ++ w) rest) else none := by
  rw [← BitVec.ofNat_add, setDataPosition, toSize_ofNat (by omega)]
  split_ifs with hlt hbig hbig
  · exact absurd hbig (by unfold INT32_MAX; omega)
  · simp [split]
  · rfl
  · exact absurd hbig (by unfold INT32_MAX; omega)

end ByteParcel

/-! ## The two calls -/

section Calls

variable {Binder : Type} {B : BinderFormat Binder} {header : TransactionHeader Binder}
  {request : ByteParcel} {front rest : Bytes}

/-- The fields that both calls begin with. -/
def headerBytes (B : BinderFormat Binder) (header : TransactionHeader Binder) : Bytes :=
  B.flatten header.target ++ (littleEndian 4 header.code.toNat ++ (littleEndian 4 header.flags.toNat ++
    (littleEndian 4 header.callingUid.toNat ++ littleEndian 4 header.callingPid.toNat)))

/-- A payload behind its size. -/
def sizedBytes (b : Bytes) : Bytes := littleEndian 8 b.length ++ b

/-- The parcel of the pre-hook. -/
def preBytes (B : BinderFormat Binder) (header : TransactionHeader Binder) (data : Bytes) : Bytes :=
  headerBytes B header ++ sizedBytes data

/-- The parcel of the post-hook. -/
def postBytes (B : BinderFormat Binder) (header : TransactionHeader Binder) (result : BitVec 32)
    (data reply : Bytes) : Bytes :=
  headerBytes B header ++ (littleEndian 4 result.toNat ++ (sizedBytes data ++ sizedBytes reply))

/-- The bytes of a reply parcel; an absent one has none. -/
def replyBytes (reply : Option ByteParcel) : Bytes := (reply.map ByteParcel.data).getD []

theorem length_headerBytes : (headerBytes B header).length = B.size + 16 := by
  simp [headerBytes, B.length_flatten]

theorem length_replyBytes {reply : Option ByteParcel} (h : ∀ p, reply = some p → p.dataSize < 2 ^ 31) :
    (replyBytes reply).length < 2 ^ 31 := by
  cases reply with
  | none => exact Nat.two_pow_pos 31
  | some p => exact h p rfl

theorem toNat_size {b : Bytes} (h : b.length < 2 ^ 31) : (BitVec.ofNat 64 b.length).toNat = b.length := by
  rw [BitVec.toNat_ofNat]
  omega

theorem writeInterceptorCallData_eq (h : request.dataSize < 2 ^ 31) :
    Native.Wire.writeInterceptorCallData B header request {} =
      some ((), split (preBytes B header request.data) []) := by
  unfold Native.Wire.writeInterceptorCallData BinderFormat.writeStrongBinder writeInt writeLong
  rw [show ({} : ByteParcel) = split [] [] from rfl, run_bind write_split, run_bind write_split,
    run_bind write_split, run_bind write_split, run_bind write_split, run_bind write_split,
    appendFrom_split h, dataSize, toNat_size h]
  simp only [preBytes, headerBytes, sizedBytes, List.append_assoc, List.nil_append]

theorem writePostCallData_eq {result : BitVec 32} {reply : Option ByteParcel}
    (h : request.dataSize < 2 ^ 31) (hreply : ∀ p, reply = some p → p.dataSize < 2 ^ 31) :
    Native.Wire.writePostCallData B header request result reply {} =
      some ((), split (postBytes B header result request.data (replyBytes reply)) []) := by
  unfold postBytes replyBytes
  unfold Native.Wire.writePostCallData BinderFormat.writeStrongBinder writeInt writeLong
  rw [show ({} : ByteParcel) = split [] [] from rfl, run_bind write_split, run_bind write_split,
    run_bind write_split, run_bind write_split, run_bind write_split, run_bind write_split,
    run_bind write_split, run_bind (appendFrom_split h), run_bind write_split, dataSize, toNat_size h]
  cases reply with
  | none =>
    simp only [headerBytes, sizedBytes, List.append_assoc, List.nil_append]
    rfl
  | some p =>
    have hp := hreply p rfl
    simp only [Option.map_some, Option.getD_some]
    split_ifs with hpos
    · rw [appendFrom_split hp, dataSize, toNat_size hp]
      simp only [headerBytes, sizedBytes, List.append_assoc, List.nil_append]
    · have hnil : p.data = [] := List.length_eq_zero_iff.1 (Nat.eq_zero_of_not_pos hpos)
      simp only [headerBytes, sizedBytes, List.append_assoc, List.nil_append, hnil, dataSize,
        List.length_nil]
      rfl

theorem readHeader_split :
    BinderInterceptor.readHeader B (split front (headerBytes B header ++ rest)) =
      some (header, split (front ++ headerBytes B header) rest) := by
  have hbinder (w : Bytes) : B.readStrongBinder (split front (B.flatten header.target ++ w)) =
      some (header.target, split (front ++ B.flatten header.target) w) := by
    unfold BinderFormat.readStrongBinder
    rw [run_bind (read_split (B.length_flatten _)), B.unflatten_flatten]
    rfl
  unfold BinderInterceptor.readHeader headerBytes
  simp only [List.append_assoc]
  rw [run_bind (hbinder _), run_bind (readInt_split _), run_bind (readInt_split _),
    run_bind (readInt_split _), run_bind (readInt_split _)]
  simp only [List.append_assoc]
  rfl

theorem readSize_split {b : Bytes} (h : b.length < 2 ^ 31) :
    readLong (split front (littleEndian 8 b.length ++ rest)) =
      some (.ofNat 64 b.length, split (front ++ littleEndian 8 b.length) rest) := by
  have hread : readLong (split front (littleEndian 8 (BitVec.ofNat 64 b.length).toNat ++ rest)) = _ :=
    readLong_split _
  rwa [toNat_size h] at hread

/-- The pre-hook is called with what was written. -/
theorem readPreCall_split {data : Bytes} (h : data.length < 2 ^ 31) :
    BinderInterceptor.readPreCall B (split [] (preBytes B header data)) =
      some (⟨header, data⟩, split (headerBytes B header ++ littleEndian 8 data.length) data) := by
  have hfront : (headerBytes B header ++ littleEndian 8 data.length).length < 2 ^ 31 := by
    rw [List.length_append, length_headerBytes, length_littleEndian]
    have := B.size_le
    omega
  unfold BinderInterceptor.readPreCall preBytes sizedBytes
  rw [run_bind readHeader_split, List.nil_append, run_bind (readSize_split h), setWidth_size,
    run_bind (copyFromCursor_end h hfront)]
  rfl

theorem toInt_size_pos {b : Bytes} (h : b.length < 2 ^ 31) :
    (BitVec.ofNat 32 b.length).toInt > 0 ↔ b ≠ [] := by
  rw [BitVec.toInt_eq_toNat_of_lt (by rw [BitVec.toNat_ofNat]; omega), BitVec.toNat_ofNat,
    Nat.mod_eq_of_lt (by omega), gt_iff_lt, Int.natCast_pos, List.length_pos_iff]

/-- The cursor of the post-hook's parcel behind the request. -/
def endOfRequest (B : BinderFormat Binder) (data : Bytes) : ℕ := B.size + 28 + data.length

/-- The end of the request, and the start of a reply, are ints. -/
def StepFits (B : BinderFormat Binder) (data reply : Bytes) : Prop :=
  endOfRequest B data < 2 ^ 31 ∧ (reply ≠ [] → endOfRequest B data + 8 < 2 ^ 31)

instance {data reply : Bytes} : Decidable (StepFits B data reply) := by
  unfold StepFits
  infer_instance

/-- The reply as the post-hook gets it: an empty one is null. -/
def replyOrNull (reply : Bytes) : Option Bytes := if reply = [] then none else some reply

/-- The post-hook is called with what was written if its step over the request fits; otherwise it is not
called. -/
theorem readPostCall_split {data reply : Bytes} {result : BitVec 32} (h : data.length < 2 ^ 31)
    (hreply : reply.length < 2 ^ 31) :
    (BinderInterceptor.readPostCall B (split [] (postBytes B header result data reply))).map Prod.fst =
      if StepFits B data reply then some ⟨header, data, replyOrNull reply, result⟩ else none := by
  have hB := B.size_le
  generalize hfront : headerBytes B header ++ littleEndian 4 result.toNat ++
    littleEndian 8 data.length = front
  have hlength : front.length = B.size + 28 := by
    rw [← hfront]
    simp only [List.length_append, length_headerBytes, length_littleEndian]
  have hend : endOfRequest B data = front.length + data.length := by rw [endOfRequest, hlength]
  have hlt : front.length < 2 ^ 31 := by omega
  have hposition : dataPositionInt (split front (data ++ sizedBytes reply)) =
      some (.ofNat 32 front.length, split front (data ++ sizedBytes reply)) := rfl
  have hstep : setDataPosition (.ofNat 32 front.length + .ofNat 32 data.length)
      (split front (data ++ sizedBytes reply)) = _ := setDataPosition_split hlt h
  unfold BinderInterceptor.readPostCall postBytes
  rw [run_bind readHeader_split, List.nil_append, run_bind (readInt_split _), sizedBytes,
    List.append_assoc, run_bind (readSize_split h), setWidth_size, hfront,
    run_bind (copyFromCursor_split h hlt),
    run_bind hposition]
  by_cases hint : endOfRequest B data < 2 ^ 31
  · rw [if_pos (hend ▸ hint)] at hstep
    rw [run_bind hstep, sizedBytes, run_bind (readSize_split hreply), setWidth_size]
    by_cases hnil : reply = []
    · subst hnil
      rw [if_neg fun hpos => (toInt_size_pos hreply).1 hpos rfl, if_pos ⟨hint, fun hne => absurd rfl hne⟩]
      rfl
    · rw [if_pos ((toInt_size_pos hreply).2 hnil)]
      have hstart : (front ++ data ++ littleEndian 8 reply.length).length = endOfRequest B data + 8 := by
        simp only [List.length_append, length_littleEndian, hend]
      by_cases hfar : endOfRequest B data + 8 < 2 ^ 31
      · have hreplyCopy := copyFromCursor_end hreply (hstart ▸ hfar)
        rw [if_pos ⟨hint, fun _ => hfar⟩, replyOrNull, if_neg hnil, map_eq_pure_bind, bind_assoc, run_bind hreplyCopy]
        rfl
      · have hreplyCopy : BinderInterceptor.copyFromCursor (.ofNat 32 reply.length)
            (split (front ++ data ++ littleEndian 8 reply.length) reply) = none :=
          copyFromCursor_far hreply hnil (by omega) (by omega)
        rw [if_neg fun hboth => hfar (hboth.2 hnil), map_eq_pure_bind, bind_assoc,
          run_bind_none hreplyCopy]
        rfl
  · rw [if_neg (hend ▸ hint)] at hstep
    rw [run_bind_none hstep, if_neg fun hboth => hint hboth.1]
    rfl

end Calls

/-! ## The answers -/

section Answers

open TrickyStore.BinderInterceptor Native.Wire

variable {front rest reply : Bytes} {code : BitVec 32}

def BinderInterceptor.Result.action : BinderInterceptor.Result → BitVec 32
  | .Skip => RESULT_SKIP
  | .Continue => RESULT_CONTINUE
  | .OverrideReply _ _ => RESULT_OVERRIDE_REPLY

/-- The sizes that a reply parcel can have in Kotlin. -/
def BinderInterceptor.Result.Fits : BinderInterceptor.Result → Prop
  | .Skip => True
  | .Continue => True
  | .OverrideReply _ reply => reply.length < 2 ^ 31

/-- What follows the action. -/
def BinderInterceptor.Result.body : BinderInterceptor.Result → Bytes
  | .Skip => []
  | .Continue => []
  | .OverrideReply code reply => littleEndian 4 code.toNat ++ sizedBytes reply

def answerBytes (r : BinderInterceptor.Result) : Bytes := littleEndian 4 r.action.toNat ++ r.body

theorem writeResultToReply_eq {r : BinderInterceptor.Result} (h : r.Fits) :
    writeResultToReply r {} = some ((), split (answerBytes r) []) := by
  cases r with
  | Skip => rfl
  | Continue => rfl
  | OverrideReply code reply =>
    have hfits : (⟨reply, 0⟩ : ByteParcel).dataSize < 2 ^ 31 := h
    have hsize : toSize (.ofNat 32 reply.length) = (⟨reply, 0⟩ : ByteParcel).dataSize := toSize_int h
    have hwritten : ((BitVec.ofNat 32 reply.length).signExtend 64).toNat = reply.length := hsize
    show (writeInt RESULT_OVERRIDE_REPLY >>= fun _ => writeInt code >>= fun _ => writeLong _ >>= fun _ =>
      appendFrom _ 0 (toSize (.ofNat 32 reply.length))) {} = _
    rw [show ({} : ByteParcel) = split [] [] from rfl, writeInt, run_bind write_split, writeInt,
      run_bind write_split, writeLong, run_bind write_split, hwritten, hsize, appendFrom_split hfits]
    simp only [answerBytes, Result.action, Result.body, sizedBytes, List.append_assoc, List.nil_append]

theorem readAction_answer {r : BinderInterceptor.Result} :
    readAction (split [] (answerBytes r)) = some (r.action, split (littleEndian 4 r.action.toNat) r.body) := by
  have hknown : r.action = 1 ∨ r.action = 2 ∨ r.action = 3 ∨ r.action = 4 := by
    cases r with
    | Skip => exact .inl rfl
    | Continue => exact .inr (.inl rfl)
    | OverrideReply code reply => exact .inr (.inr (.inl rfl))
  rw [readAction, answerBytes, run_bind (readIntStatus_split _), if_pos hknown]
  rfl

theorem readOverrideReply_split (h : reply.length < 2 ^ 31) (hasReply : Bool) :
    (readOverrideReply (if hasReply then some {} else none)
        (split front (littleEndian 4 code.toNat ++ sizedBytes reply))).map Prod.fst =
      some (code, if hasReply then some ⟨reply, reply.length⟩ else none) := by
  unfold readOverrideReply sizedBytes
  rw [run_bind (readInt_split _)]
  cases hasReply with
  | false => rfl
  | true =>
    have hcopy := appendFrom_end (front ++ littleEndian 4 code.toNat ++ littleEndian 8 reply.length) h
    simp only [if_true]
    rw [run_bind (readSize_split h), run_get, toNat_size h, run_lift hcopy, split, List.append_nil]
    rfl

end Answers

/-! ## The transaction as a whole -/

section Transaction

open TrickyStore.BinderInterceptor Native.Wire

variable {Binder : Type} {B : BinderFormat Binder} {header : TransactionHeader Binder}
  {request : ByteParcel} {reply : Option ByteParcel} {result : BitVec 32}
  {onPreTransact : PreCall Binder → BinderInterceptor.Result}
  {onPostTransact : PostCall Binder → BinderInterceptor.Result}
  {target : Bytes → BitVec 32 × ByteParcel} {hasReply : Bool}

theorem handlePreTransact_written {data : Bytes} (h : data.length < 2 ^ 31) :
    handlePreTransact B onPreTransact (split [] (preBytes B header data)) =
      onPreTransact ⟨header, data⟩ := by
  rw [handlePreTransact, readPreCall_split h]
  rfl

theorem handlePostTransact_written {data reply : Bytes} (h : data.length < 2 ^ 31)
    (hreply : reply.length < 2 ^ 31) :
    handlePostTransact B onPostTransact (split [] (postBytes B header result data reply)) =
      if StepFits B data reply then onPostTransact ⟨header, data, replyOrNull reply, result⟩ else .Skip := by
  have hcall (p : ByteParcel) : handlePostTransact B onPostTransact p =
      (((readPostCall B p).map Prod.fst).map onPostTransact).getD .Skip := by
    rw [Option.map_map]
    rfl
  rw [hcall, readPostCall_split h hreply]
  split_ifs <;> rfl

/-- A hook whose replies are parcels. -/
def AnswersFit {Call : Type} (hook : Call → BinderInterceptor.Result) : Prop := ∀ call, (hook call).Fits

theorem onTransact_pre {data : Bytes} (h : data.length < 2 ^ 31) (hpre : AnswersFit onPreTransact) :
    onTransact B onPreTransact onPostTransact kPreTransact (split [] (preBytes B header data)) =
      split (answerBytes (onPreTransact ⟨header, data⟩)) [] := by
  rw [onTransact, if_pos rfl, handlePreTransact_written h, writeResultToReply_eq (hpre _)]
  rfl

theorem onTransact_post {data reply : Bytes} (h : data.length < 2 ^ 31) (hreply : reply.length < 2 ^ 31)
    (hfits : StepFits B data reply) (hpost : AnswersFit onPostTransact) :
    onTransact B onPreTransact onPostTransact kPostTransact
        (split [] (postBytes B header result data reply)) =
      split (answerBytes (onPostTransact ⟨header, data, replyOrNull reply, result⟩)) [] := by
  rw [onTransact, if_neg (by decide), handlePostTransact_written h hreply, if_pos hfits,
    writeResultToReply_eq (hpost _)]
  rfl

/-- What the wire stands for: both hooks are asked with the transaction itself, and what they answer is
what happens. -/
def intercept (onPreTransact : PreCall Binder → BinderInterceptor.Result)
    (onPostTransact : PostCall Binder → BinderInterceptor.Result) (target : Bytes → BitVec 32 × ByteParcel)
    (hasReply : Bool) (header : TransactionHeader Binder) (data : Bytes) :
    Option (BitVec 32 × Option ByteParcel) :=
  let override code (reply : Bytes) :=
    some (code, if hasReply then some (⟨reply, reply.length⟩ : ByteParcel) else none)
  match onPreTransact ⟨header, data⟩ with
  | .Skip => none
  | .OverrideReply code reply => override code reply
  | .Continue =>
    let (result, targetReply) := target data
    let reply := if hasReply then some targetReply else none
    match onPostTransact ⟨header, data, replyOrNull (replyBytes reply), result⟩ with
    | .OverrideReply code reply => override code reply
    | _ => some (result, reply)

theorem handleInterceptedTransaction_eq (hrequest : request.dataSize < 2 ^ 31)
    (htarget : (target request.data).2.dataSize < 2 ^ 31)
    (hfits : endOfRequest B request.data + 8 < 2 ^ 31) (hpre : AnswersFit onPreTransact)
    (hpost : AnswersFit onPostTransact) :
    handleInterceptedTransaction B (fun code data =>
        some (onTransact B onPreTransact onPostTransact code ⟨data.data, 0⟩)) target hasReply header request =
      intercept onPreTransact onPostTransact target hasReply header request.data := by
  unfold handleInterceptedTransaction intercept
  rw [writeInterceptorCallData_eq hrequest]
  simp only [Option.bind_eq_bind, Option.bind_some, split_rewound, onTransact_pre hrequest hpre,
    readAction_answer]
  cases honpre : onPreTransact ⟨header, request.data⟩ with
  | Skip => rfl
  | OverrideReply code reply =>
    have hreply : reply.length < 2 ^ 31 := by
      have := hpre ⟨header, request.data⟩
      rwa [honpre] at this
    rw [show (BinderInterceptor.Result.OverrideReply code reply).action = 3 from rfl, if_neg (by decide), if_pos rfl]
    exact readOverrideReply_split hreply hasReply
  | Continue =>
    have hcopy : (appendFrom request 0 request.dataSize {}).map Prod.snd = some (split request.data []) := by
      rw [show ({} : ByteParcel) = split [] [] from rfl, appendFrom_split hrequest]
      rfl
    have hdata : (split request.data []).data = request.data := List.append_nil _
    generalize hreplied : (if hasReply then some (target request.data).2 else none) = reply
    have hreply : ∀ p, reply = some p → p.dataSize < 2 ^ 31 := by
      intro p hp
      subst hreplied
      split_ifs at hp
      cases hp
      exact htarget
    rw [show BinderInterceptor.Result.Continue.action = 2 from rfl, if_neg (by decide), if_neg (by decide),
      if_neg (by decide), hcopy, Option.bind_some, hdata, hreplied, writePostCallData_eq hrequest hreply,
      Option.bind_some, split_rewound,
      onTransact_post hrequest (length_replyBytes hreply) ⟨by omega, fun _ => hfits⟩ hpost, split_rewound, readAction_answer, Option.bind_some]
    cases honpost : onPostTransact ⟨header, request.data, replyOrNull (replyBytes reply),
        (target request.data).1⟩ with
    | Skip => rfl
    | Continue => rfl
    | OverrideReply code bytes =>
      have hbytes : bytes.length < 2 ^ 31 := by
        have := hpost ⟨header, request.data, replyOrNull (replyBytes reply), (target request.data).1⟩
        rwa [honpost] at this
      exact readOverrideReply_split hbytes hasReply

/-- The reader that follows an answer. -/
theorem answer_written {r : BinderInterceptor.Result} (h : r.Fits) :
    ∃ p response, writeResultToReply r {} = some ((), p) ∧
      readAction ⟨p.data, 0⟩ = some (r.action, response) ∧
      ∀ code reply, r = .OverrideReply code reply → ∀ hasReply : Bool,
        (readOverrideReply (if hasReply then some {} else none) response).map Prod.fst =
          some (code, if hasReply then some ⟨reply, reply.length⟩ else none) := by
  refine ⟨_, _, writeResultToReply_eq h, by rw [split_rewound, readAction_answer], ?_⟩
  intro code reply heq hasReply
  subst heq
  exact readOverrideReply_split h hasReply

/-- Both sides agree on their wire format: the pre-hook gets what was written, the post-hook does if and
only if its step over the request fits, and the native side reads the answer that was given. -/
theorem wireFormat_agrees {Binder : Type} (B : BinderFormat Binder) (header : TransactionHeader Binder)
    (request : ByteParcel) (result : BitVec 32) (reply : Option ByteParcel)
    (hrequest : request.dataSize < 2 ^ 31) (hreply : ∀ p, reply = some p → p.dataSize < 2 ^ 31) :
    (∃ p, writeInterceptorCallData B header request {} = some ((), p) ∧
      ∀ onPreTransact, handlePreTransact B onPreTransact ⟨p.data, 0⟩ =
        onPreTransact ⟨header, request.data⟩) ∧
    (∃ p, writePostCallData B header request result reply {} = some ((), p) ∧
      ((∀ onPostTransact, handlePostTransact B onPostTransact ⟨p.data, 0⟩ =
        onPostTransact ⟨header, request.data, replyOrNull (replyBytes reply), result⟩) ↔
          StepFits B request.data (replyBytes reply))) ∧
    ∀ r : BinderInterceptor.Result, r.Fits → ∃ p response, writeResultToReply r {} = some ((), p) ∧
      readAction ⟨p.data, 0⟩ = some (r.action, response) ∧
      ∀ code bytes, r = .OverrideReply code bytes → ∀ hasReply : Bool,
        (readOverrideReply (if hasReply then some {} else none) response).map Prod.fst =
          some (code, if hasReply then some ⟨bytes, bytes.length⟩ else none) := by
  refine ⟨⟨_, writeInterceptorCallData_eq hrequest, fun _ => ?_⟩,
    ⟨_, writePostCallData_eq hrequest hreply, fun hread => ?_, fun hfits _ => ?_⟩,
    fun _ => answer_written⟩
  · rw [split_rewound, handlePreTransact_written hrequest]
  · by_contra hfits
    have hcontinue := hread fun _ => .Continue
    rw [split_rewound, handlePostTransact_written hrequest (length_replyBytes hreply),
      if_neg hfits] at hcontinue
    cases hcontinue
  · rw [split_rewound, handlePostTransact_written hrequest (length_replyBytes hreply), if_pos hfits]

/-- A format that holds a handle between a type and a stability. -/
def handleFormat : BinderFormat (BitVec 64) where
  size := 28
  flatten b := littleEndian 8 0x73682a85 ++ (littleEndian 8 b.toNat ++ littleEndian 12 0)
  unflatten b := some (.ofNat 64 (ofLittleEndian ((b.drop 8).take 8)))
  length_flatten b := by simp only [List.length_append, length_littleEndian]
  unflatten_flatten b := by
    rw [List.drop_left' (length_littleEndian _ _), List.take_left' (length_littleEndian _ _),
      ofLittleEndian_littleEndian b.isLt, BitVec.ofNat_toNat, BitVec.setWidth_eq]
  size_le := le_rfl

theorem wireFormat_agrees_getKeyEntry :
    ∃ p, writePostCallData handleFormat ⟨7, 2, 0, 10123, 4711⟩ ⟨[1, 2, 3, 4, 5], 0⟩ 0
        (some ⟨[0, 0, 0, 0, 9], 0⟩) {} = some ((), p) ∧
      ∀ onPostTransact, handlePostTransact handleFormat onPostTransact ⟨p.data, 0⟩ =
        onPostTransact ⟨⟨7, 2, 0, 10123, 4711⟩, [1, 2, 3, 4, 5], some [0, 0, 0, 0, 9], 0⟩ := by
  have hagrees := wireFormat_agrees handleFormat ⟨7, 2, 0, 10123, 4711⟩ ⟨[1, 2, 3, 4, 5], 0⟩ 0
    (some ⟨[0, 0, 0, 0, 9], 0⟩) (by decide) fun p hp => by cases hp; decide
  obtain ⟨p, hwritten, hread⟩ := hagrees.2.1
  exact ⟨p, hwritten, hread.2 (by decide)⟩

/-- Behind a request of the greatest size the step leaves the ints, and the post-hook is not called. -/
theorem wireFormat_step_overflows :
    ∃ p, writePostCallData handleFormat ⟨7, 2, 0, 10123, 4711⟩ ⟨List.replicate (2 ^ 31 - 1) 0, 0⟩ 0 none {} =
        some ((), p) ∧
      handlePostTransact handleFormat (fun _ => .Continue) ⟨p.data, 0⟩ ≠ .Continue := by
  have hsize : (⟨List.replicate (2 ^ 31 - 1) 0, 0⟩ : ByteParcel).dataSize < 2 ^ 31 := by
    rw [dataSize, List.length_replicate]
    norm_num
  have hreply : ∀ p, (none : Option ByteParcel) = some p → p.dataSize < 2 ^ 31 := nofun
  have hfits : ¬StepFits handleFormat (List.replicate (2 ^ 31 - 1) 0) (replyBytes none) := by
    intro hfits
    have hend := hfits.1
    rw [endOfRequest, List.length_replicate, show handleFormat.size = 28 from rfl] at hend
    omega
  refine ⟨_, writePostCallData_eq hsize hreply, ?_⟩
  rw [split_rewound, handlePostTransact_written hsize (length_replyBytes hreply), if_neg hfits]
  exact fun hskip => by cases hskip

end Transaction

end TrickyStore
