import Mathlib.Algebra.Ring.Nat
import TrickyStore.Model.CertificateAliasCache

/-!
# The key files

`PersistenceManager` keeps one file per forged key under `keys/<uid>/<SHA-256 of the alias>.bin`.
Saves, deletions and the clearing of the directory run one after another on a single-threaded
executor, so the pending ones are a queue.  A file name is identified with the pair of uid and alias:
SHA-256 is taken as injective, and an alias has no unpaired surrogate, for which the UTF-8 bytes that
are hashed have a `?`.
-/

open Lib

namespace TrickyStore

/-- `DataOutputStream.writeUTF` of one character: modified UTF-8, a supplementary one as a surrogate
pair of three bytes each. -/
def modifiedUtf8Size (c : Char) : ℕ :=
  if c.val = 0 then 2
  else if c.val ≤ 0x7F then 1
  else if c.val ≤ 0x7FF then 2
  else if c.val ≤ 0xFFFF then 3
  else 6

/-- The length that `writeUTF` compares with 65535. -/
def modifiedUtf8Length (s : String) : ℕ := (s.toList.map modifiedUtf8Size).sum

/-- A key file.  The marshalled metadata is identified with the metadata; `none` also stands for
bytes that do not unmarshal. -/
structure PersistedKey where
  uid : Int
  keyAlias : String
  securityLevel : Int
  skipLeafHack : Bool
  nspace : Int
  domain : Int
  keyPair : Option KeyPair
  secretKey : Option SecretKey
  chain : List Certificate
  params : KeyGenParameters
  metadataBytes : Option KeyMetadata
deriving DecidableEq, Repr

def PersistedKey.key (pk : PersistedKey) : Key := ⟨pk.uid, pk.keyAlias⟩

/-- The parameters that the file format keeps; the others are read back as their defaults. -/
def KeyGenParameters.persisted (k : KeyGenParameters) : KeyGenParameters :=
  { algorithm := k.algorithm, keySize := k.keySize, ecCurve := k.ecCurve, purpose := k.purpose
    digest := k.digest, padding := k.padding, blockMode := k.blockMode, mgfDigest := k.mgfDigest
    usageCountLimit := k.usageCountLimit, callerNonce := k.callerNonce
    unlockedDeviceRequired := k.unlockedDeviceRequired, activeDateTime := k.activeDateTime
    originationExpireDateTime := k.originationExpireDateTime
    usageExpireDateTime := k.usageExpireDateTime, noAuthRequired := k.noAuthRequired
    origin := k.origin, rsaPublicExponent := k.rsaPublicExponent }

/-- A task of the executor. -/
inductive PersistTask where
  | saveKey (pk : PersistedKey)
  | deleteKey (uid : Int) (keyAlias : String)
  | clearAll
deriving DecidableEq, Repr

/-- The files and the tasks that the executor has still to run, the oldest first. -/
structure PersistenceManager where
  files : HashMap Key PersistedKey := ∅
  queue : List PersistTask := []

namespace PersistenceManager

/-- What a task does to the files.  A save writes a temporary file and renames it, so one that fails
because the alias is too long for `writeUTF` leaves the old file. -/
def runTask (files : HashMap Key PersistedKey) : PersistTask → HashMap Key PersistedKey
  | .saveKey pk =>
    if modifiedUtf8Length pk.keyAlias ≤ 65535 then
      files.insert pk.key { pk with params := pk.params.persisted }
    else files
  | .deleteKey uid keyAlias => files.erase ⟨uid, keyAlias⟩
  | .clearAll => ∅

variable (p : PersistenceManager)

def execute (t : PersistTask) : PersistenceManager := { p with queue := p.queue ++ [t] }

def saveKey (pk : PersistedKey) : PersistenceManager := p.execute (.saveKey pk)

def deleteKey (k : Key) : PersistenceManager := p.execute (.deleteKey k.uid k.keyAlias)

def clearAll : PersistenceManager := p.execute .clearAll

/-- The executor runs its oldest task. -/
def step : PersistenceManager :=
  match p.queue with
  | [] => p
  | t :: ts => { files := runTask p.files t, queue := ts }

/-- The executor runs every pending task. -/
def drain : PersistenceManager := { files := p.queue.foldl runTask p.files, queue := [] }

def loadAll : List PersistedKey := p.files.entries.map Sigma.snd

/-- The files once the pending tasks have run. -/
def settled : HashMap Key PersistedKey := p.drain.files

section Settled

variable (pk : PersistedKey) (k : Key)

theorem settled_of_queue_eq_nil {p : PersistenceManager} (h : p.queue = []) :
    p.settled = p.files := by
  rw [settled, drain, h]
  rfl

theorem settled_execute (t : PersistTask) : (p.execute t).settled = runTask p.settled t := by
  simp only [settled, drain, execute, List.foldl_append, List.foldl_cons, List.foldl_nil]

@[simp] theorem settled_deleteKey : (p.deleteKey k).settled = p.settled.erase k :=
  p.settled_execute _

@[simp] theorem settled_clearAll : p.clearAll.settled = ∅ := p.settled_execute _

theorem settled_saveKey (h : modifiedUtf8Length pk.keyAlias ≤ 65535) :
    (p.saveKey pk).settled =
      p.settled.insert pk.key { pk with params := pk.params.persisted } := by
  rw [saveKey, settled_execute, runTask, if_pos h]

theorem settled_step : p.step.settled = p.settled := by
  unfold step
  cases h : p.queue with
  | nil => rfl
  | cons t ts => simp only [settled, drain, h, List.foldl_cons]

end Settled

end PersistenceManager

end TrickyStore
