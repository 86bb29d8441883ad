import TrickyStore.Lib.Machine
import TrickyStore.Model.CertificateHack
import TrickyStore.Model.SecurityLevelInterceptor

/-!
# A keybox replacement among running transactions

`PkgConfig.updateKeyBox` runs on the thread of the file observer, `generateKey` on the binder threads, and
the two share no lock.  The replacement goes step by step; a transaction reads the keybox and makes its
chain in one step, and stores the chain in a later one.  The executor runs the file tasks in their order.
-/

open Lib

namespace TrickyStore

/-! ## The replacement -/

/-- A step of `updateKeyBox`. -/
inductive ReloadStep where
  | clear
  | storeKeybox (algorithmName : String) (keybox : KeyBox)
  | cleanupAll

/-- Where the replacement is: before the keyboxes are cleared, on the way, or behind `cleanupAll`. -/
inductive Stage where
  | waiting
  | running
  | done
deriving DecidableEq, Repr

namespace ReloadStep

/-- `updateKeyBox` for a file with these `Key` elements. -/
def updateKeyBox (elements : List (String × KeyBox)) : List ReloadStep :=
  .clear :: (elements.map fun e => .storeKeybox e.1 e.2) ++ [.cleanupAll]

def run (d : Daemon) : ReloadStep → Daemon
  | .clear => { d with keyboxes := ∅, leafAlgorithms := ∅ }
  | .storeKeybox algorithmName keybox =>
    { d with keyboxes := d.keyboxes.insert algorithmName keybox }
  | .cleanupAll => d.cleanupAll

def stage : List ReloadStep → Stage
  | [] => .done
  | .clear :: _ => .waiting
  | _ => .running

end ReloadStep

/-! ## The transactions -/

/-- What a chain was signed with. -/
inductive Signer where
  | keybox (keybox : KeyBox)
  /-- The entry of the designated attest key. -/
  | attestKey (key : Key) (keyPair : KeyPair) (chain : List Certificate)
  /-- The chain is as the real keystore made it. -/
  | nobody

/-- A `generateKey` that signs a chain. -/
inductive Signing where
  /-- The route that forges the key. -/
  | forge (uid : Int) (level : SecurityLevel) (request : Daemon.KeygenRequest) (env : Env)
  /-- The re-signing of a reply of the real keystore. -/
  | resign (uid : Int) (level : SecurityLevel) (keyAlias : String) (metadata : KeyMetadata)
      (chain : List Certificate) (env : Env)

/-- A chain that is made and not yet stored. -/
inductive MadeChain where
  | forged (uid : Int) (level : SecurityLevel) (request : Daemon.KeygenRequest) (env : Env) (keyPair : KeyPair)
      (chain : List Certificate) (signer : Signer) (skipLeafHack : Bool)
  | resigned (uid : Int) (level : SecurityLevel) (keyAlias : String) (metadata : KeyMetadata) (env : Env)
      (chain : List Certificate) (signer : Signer)

namespace MadeChain

def key : MadeChain → Key
  | forged uid _ request .. => ⟨uid, request.keyAlias⟩
  | resigned uid _ keyAlias .. => ⟨uid, keyAlias⟩

def keyPair : MadeChain → Option KeyPair
  | forged _ _ _ _ keyPair .. => some keyPair
  | resigned .. => none

def chain : MadeChain → List Certificate
  | forged _ _ _ _ _ chain .. => chain
  | resigned _ _ _ _ _ chain _ => chain

def signer : MadeChain → Signer
  | forged _ _ _ _ _ _ signer _ => signer
  | resigned _ _ _ _ _ _ signer => signer

end MadeChain

namespace Daemon

variable (P : Platform) (x : X509) (env : Env) (level : SecurityLevel) (callingUid : Int)

/-- The entry of a designated attest key, with the key it stands under. -/
def attestationKey (uid : Int) (descriptor : KeyDescriptor) (d : Daemon) : Option Signer :=
  (descriptor.keyAlias.or (d.cache.findAliasForNspace uid descriptor.nspace)).bind fun keyAlias =>
    (d.cache.getKeyPairs uid keyAlias).map fun entry => .attestKey ⟨uid, keyAlias⟩ entry.1 entry.2

/-- Who signs in `generateKeyPair`. -/
def forgeSigner (request : KeygenRequest) (d : Daemon) : Signer :=
  match request.attestationKeyDescriptor with
  | some descriptor => (d.attestationKey callingUid descriptor).getD .nobody
  | none => (d.getKeyboxForAlgorithm request.kgp.algorithm).elim .nobody .keybox

/-- The keybox that signs in `hackLeaf`, and the leaf. -/
def leafSigning (chain : List Certificate) (d : Daemon) : Option (KeyBox × Certificate) :=
  (chain.head?.bind fun first => CertificateHack.attestedLeaf x first.encoded).bind fun leaf =>
    CertificateHack.signing x d.keyboxes leaf callingUid

/-- The re-signing of a reply up to the store. -/
def beginPatch (keyAlias : String) (chain : List Certificate) (d : Daemon) : Daemon × List Certificate :=
  let k : Key := ⟨callingUid, keyAlias⟩
  let d' := (d.relinquishPassthroughOwnership k).clearSyntheticCertificateState k false
  (d', d'.hackCertificateChain env chain callingUid)

/-- The store of a re-signed reply. -/
def storePatch (keyAlias : String) (metadata : KeyMetadata) (patched : List Certificate) (d : Daemon) :
    Daemon × Result :=
  let metadata' := { metadata.putCertificateChain patched with
    authorizations := patchAuthorizations env callingUid metadata.authorizations }
  let response : KeyEntryResponse :=
    { metadata := metadata', iSecurityLevel := some level, serial := d.clock }
  ({ d with
      cache := d.cache.storePatched ⟨callingUid, keyAlias⟩ response
      config := if env.readsPatchLevels || metadata.authorizations.isSome then
          d.config.getOrPut env.packageManager callingUid
        else d.config },
    .typedReply metadata')

/-- The step of a transaction that reads the keybox; without a chain the transaction ends. -/
def beginSigning (d : Daemon) : Signing → Daemon × Option MadeChain
  | .forge uid level request env =>
    let d' := d.checked env uid
    (d', (d'.generateKeyPair P env uid request.attestationKeyDescriptor request.kgp level.toInt).map
      fun made => .forged uid level request env made.1 made.2 (d'.forgeSigner uid request)
        (d'.needHack env uid))
  | .resign uid level keyAlias metadata chain env =>
    let (d', patched) := d.beginPatch { env with hackLeaf := CertificateHack.hackLeaf x } uid keyAlias chain
    (d', some (.resigned uid level keyAlias metadata env patched
      ((d'.leafSigning x uid chain).elim .nobody fun signed => .keybox signed.1)))

/-- The step of a transaction that stores the chain. -/
def storeChain (d : Daemon) : MadeChain → Daemon
  | .forged uid level request env keyPair chain _ skipLeafHack =>
    (d.storeGeneratedKey P env level uid request.keyAlias request.descriptor.domain request.kgp keyPair chain
      skipLeafHack).1
  | .resigned uid level keyAlias metadata env patched _ =>
    (d.storePatch env level uid keyAlias metadata patched).1

end Daemon

/-! ## The interleaving -/

/-- A transaction between its two steps. -/
structure SigningInFlight where
  made : MadeChain
  readAt : Stage

/-- A chain that was stored. -/
structure StoredChain where
  made : MadeChain
  storedAt : Stage

/-- The daemon, the steps that the replacement has still to take, the transactions between their steps, and
every chain that was stored. -/
structure KeyboxReload where
  daemon : Daemon
  reload : List ReloadStep
  inFlight : HashMap ℕ SigningInFlight := ∅
  stored : List StoredChain := []

namespace KeyboxReload

inductive Event where
  | beginSigning (id : ℕ) (signing : Signing)
  | store (id : ℕ)
  | reload
  /-- The executor runs one task. -/
  | persist

/-- A daemon whose keybox file has just changed. -/
def start (d : Daemon) (elements : List (String × KeyBox)) : KeyboxReload :=
  { daemon := d, reload := ReloadStep.updateKeyBox elements }

variable (P : Platform) (x : X509)

def stage (s : KeyboxReload) : Stage := ReloadStep.stage s.reload

def next (s : KeyboxReload) : Event → KeyboxReload
  | .beginSigning id signing =>
    if s.inFlight.containsKey id then s
    else match s.daemon.beginSigning P x signing with
      | (d, none) => { s with daemon := d }
      | (d, some made) => { s with daemon := d, inFlight := s.inFlight.insert id ⟨made, s.stage⟩ }
  | .store id =>
    match s.inFlight.lookup id with
    | none => s
    | some t => { s with
        daemon := s.daemon.storeChain P t.made
        inFlight := s.inFlight.erase id
        stored := ⟨t.made, s.stage⟩ :: s.stored }
  | .reload =>
    match s.reload with
    | [] => s
    | step :: reload => { s with daemon := step.run s.daemon, reload }
  | .persist => { s with daemon := { s.daemon with persistence := s.daemon.persistence.step } }

/-- The replacement and every transaction have ended, and the executor has nothing left to do. -/
structure Ended (s : KeyboxReload) : Prop where
  reload : s.reload = []
  inFlight : ∀ id, s.inFlight.lookup id = none
  queue : s.daemon.persistence.queue = []

end KeyboxReload

/-! ## The steps together -/

/-- Without a transaction in between, the steps replace the keyboxes and drop every key. -/
theorem ReloadStep.foldl_updateKeyBox (d : Daemon) (elements : List (String × KeyBox)) :
    (updateKeyBox elements).foldl run d =
      d.updateKeyBox (elements.foldl (fun keyboxes e => keyboxes.insert e.1 e.2) ∅) := by
  have hstore (d : Daemon) : (elements.map fun e => ReloadStep.storeKeybox e.1 e.2).foldl run d =
      { d with keyboxes := elements.foldl (fun keyboxes e => keyboxes.insert e.1 e.2) d.keyboxes } := by
    induction elements generalizing d with
    | nil => rfl
    | cons e elements ih => exact ih _
  rw [updateKeyBox, List.cons_append, List.foldl_cons, List.foldl_append, hstore]
  rfl

namespace Daemon

variable {P : Platform} {x : X509} {env : Env} {level : SecurityLevel} {uid : Int} {d : Daemon}

/-- The two steps of a forging, one right after the other. -/
theorem routeGenerateKey_eq_steps {r : KeygenRequest} (h : d.selectedRoute env uid r = some .generate) :
    (d.routeGenerateKey P env level uid r).1 =
      match d.beginSigning P x (.forge uid level r env) with
      | (d', none) => d'
      | (d', some made) => d'.storeChain P made := by
  unfold routeGenerateKey beginSigning
  rw [h]
  dsimp only
  cases (d.checked env uid).generateKeyPair P env uid r.attestationKeyDescriptor r.kgp level.toInt <;> rfl

/-- The two steps of a re-signing, one right after the other. -/
theorem patchGenerateKeyReply_eq_steps {keyAlias : String} {metadata : KeyMetadata}
    {chain : List Certificate} (h : env.hackLeaf = CertificateHack.hackLeaf x) :
    (d.patchGenerateKeyReply env level uid keyAlias metadata chain).1 =
      match d.beginSigning P x (.resign uid level keyAlias metadata chain env) with
      | (d', none) => d'
      | (d', some made) => d'.storeChain P made := by
  unfold patchGenerateKeyReply beginSigning beginPatch
  rw [← h]
  rfl

end Daemon

end TrickyStore
