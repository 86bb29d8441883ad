import TrickyStore.Lib.Bytes
import TrickyStore.Model.Keystore

/-!
# Parcels as bytes

A parcel is a sequence of bytes with a cursor.  The native class and its Java wrapper share it: an int
takes four bytes and a long eight, in the byte order of the device, `appendFrom` copies raw bytes to the
cursor, whatever their number.  The wrapper passes positions and sizes as Java ints.
-/

open Lib

namespace TrickyStore

structure ByteParcel where
  data : Bytes := []
  dataPosition : ℕ := 0
deriving DecidableEq, Repr

/-- A program on a parcel; `none` is a status other than `OK` or an exception. -/
abbrev ParcelM := StateT ByteParcel Option

namespace ByteParcel

def dataSize (p : ByteParcel) : ℕ := p.data.length

def INT32_MAX : ℕ := 2 ^ 31 - 1

/-- Writes at the cursor, over what is there, and moves the cursor behind it. -/
def write (b : Bytes) : ParcelM Unit := fun p =>
  some ((), ⟨p.data.take p.dataPosition ++ b ++ p.data.drop (p.dataPosition + b.length),
    p.dataPosition + b.length⟩)

def read (n : ℕ) : ParcelM Bytes := fun p =>
  if p.dataPosition + n ≤ p.dataSize then
    some ((p.data.drop p.dataPosition).take n, { p with dataPosition := p.dataPosition + n })
  else none

/-- Copies `len` bytes of another parcel from `offset` on. -/
def appendFrom (source : ByteParcel) (offset len : ℕ) : ParcelM Unit := fun p =>
  if len > INT32_MAX then none
  else if len = 0 then some ((), p)
  else if offset + len ≤ source.dataSize then write ((source.data.drop offset).take len) p
  else none

def writeInt (n : BitVec 32) : ParcelM Unit := write (littleEndian 4 n.toNat)

def writeLong (n : BitVec 64) : ParcelM Unit := write (littleEndian 8 n.toNat)

/-- The read that returns its status. -/
def readIntStatus : ParcelM (BitVec 32) := do
  let b ← read 4
  return .ofNat 32 (ofLittleEndian b)

/-- The read that returns the value, and zero when there is none. -/
def readInt : ParcelM (BitVec 32) := fun p => some ((readIntStatus p).getD (0, p))

def readLong : ParcelM (BitVec 64) := fun p =>
  some (((do let b ← read 8; return BitVec.ofNat 64 (ofLittleEndian b) : ParcelM (BitVec 64)) p).getD (0, p))

/-- The bytes that a program writes into a fresh parcel. -/
def written (w : ParcelM Unit) : Bytes := ((w {}).map fun r => r.2.data).getD []

/-! ## The wrapper -/

/-- The header of a reply: the read throws unless it is zero. -/
def readException : ParcelM Unit := do
  let code ← readInt
  if code = 0 then pure () else StateT.lift none

def writeNoException : ParcelM Unit := writeInt 0

/-- Zeros up to a multiple of four. -/
def padding (b : Bytes) : Bytes := List.replicate ((4 - b.length % 4) % 4) 0

def writeByteArray (b : Bytes) : ParcelM Unit := do
  writeInt (.ofNat 32 b.length)
  write (b ++ padding b)

/-- A byte array, or null if the length is negative or more than what is left. -/
def createByteArray : ParcelM (Option Bytes) := do
  let length ← readInt
  let p ← get
  if length.toInt ≥ 0 ∧ length.toNat ≤ p.dataSize - p.dataPosition then
    return some ((p.data.drop p.dataPosition).take length.toNat)
  else return none

/-- A `jint` as a `size_t`; a negative one is huge. -/
def toSize (n : BitVec 32) : ℕ := (n.signExtend 64).toNat

def dataPositionInt : ParcelM (BitVec 32) := fun p => some (.ofNat 32 p.dataPosition, p)

/-- A position that is negative as an int is fatal. -/
def setDataPosition (n : BitVec 32) : ParcelM Unit := fun p =>
  if toSize n > INT32_MAX then none else some ((), { p with dataPosition := toSize n })

def appendFromInt (source : ByteParcel) (offset length : BitVec 32) : ParcelM Unit :=
  appendFrom source (toSize offset) (toSize length)

end ByteParcel

/-- How a strong binder is flattened into a parcel: an object and its stability. -/
structure BinderFormat (Binder : Type) where
  size : ℕ
  flatten : Binder → Bytes
  unflatten : Bytes → Option Binder
  length_flatten (b : Binder) : (flatten b).length = size
  unflatten_flatten (b : Binder) : unflatten (flatten b) = some b
  size_le : size ≤ 28

namespace BinderFormat

variable {Binder : Type} (B : BinderFormat Binder)

def writeStrongBinder (b : Binder) : ParcelM Unit := ByteParcel.write (B.flatten b)

def readStrongBinder : ParcelM Binder := do
  let b ← ByteParcel.read B.size
  StateT.lift (B.unflatten b)

end BinderFormat

end TrickyStore
