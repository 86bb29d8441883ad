import TrickyStore.Lib.Machine
import TrickyStore.Model.Keystore2Interceptor

/-!
# Requests and runs

A request meets a pre-hook; when the hook says `Continue` the real keystore executes the request and
a post-hook sees its reply.  `Daemon.serve` runs one request to its end.  `World` keeps the requests
that wait for their post-hook, so that hooks of different requests interleave; every hook is atomic.
-/

open Lib

namespace TrickyStore

/-- The intercepted requests, with what the hooks read of them. -/
inductive Request where
  | generateKey (level : SecurityLevel) (keyDescriptor attestationKeyDescriptor : Option KeyDescriptor)
      (params : Option (List KeyParameter))
  | importKey (level : SecurityLevel) (keyDescriptor : Option KeyDescriptor)
  | createOperation (level : SecurityLevel) (descriptor : Option KeyDescriptor)
      (opParams : List KeyParameter) (force : Bool)
  | deleteKey (keyDescriptor : Option KeyDescriptor)
  | updateSubcomponent (keyDescriptor : Option KeyDescriptor)
      (publicCert certificateChain : Option Bytes)
  | grant (keyDescriptor : Option KeyDescriptor) (granteeUid : Int) (accessVector : BitVec 32)
  | ungrant (keyDescriptor : Option KeyDescriptor) (granteeUid : Int)
  | getKeyEntry (descriptor : Option KeyDescriptor)
  | listEntries (domain : Int) (startPastAlias : Option String)
deriving DecidableEq, Repr

namespace Daemon

variable (P : Platform) (env : Env) (uid : Int)

def tick (d : Daemon) : Daemon := { d with clock := d.clock + 1 }

/-- The pre-hook of the request, in the interceptor that has it. -/
def onPreTransact (request : Request) (d : Daemon) : Daemon × Result :=
  match request with
  | .generateKey level kd ak params => d.preGenerateKey P env level uid kd ak params
  | .importKey _ _ => d.preImportKey env uid
  | .createOperation _ kd opParams force => d.preCreateOperation P env uid kd opParams force
  | .deleteKey kd => d.preDeleteKey uid kd
  | .updateSubcomponent kd cert chain => d.preUpdateSubcomponent uid kd cert chain
  | .grant kd granteeUid accessVector => d.preGrant env uid kd granteeUid accessVector
  | .ungrant kd granteeUid => d.preUngrant uid kd granteeUid
  | .getKeyEntry kd => d.preGetKeyEntry env uid kd
  | .listEntries _ _ => d.preListEntries env uid

/-- The post-hook of the request on the real reply; `none` is a reply without data. -/
def onPostTransact (request : Request) (resultCode : Int) (reply : Option Parcel) (d : Daemon) :
    Daemon × Result :=
  match request, reply with
  | .generateKey level kd _ _, reply => d.postGenerateKey P env level uid kd reply
  | .importKey _ kd, reply => d.postImportKey uid kd reply
  | .deleteKey kd, some _ => d.postDeleteKey uid kd resultCode
  | .updateSubcomponent kd _ _, some _ => d.postUpdateSubcomponent uid kd resultCode
  | .grant kd granteeUid accessVector, some reply =>
    d.postGrant uid kd granteeUid accessVector resultCode reply
  | .getKeyEntry kd, some reply => d.postGetKeyEntry env uid P kd reply
  | .listEntries domain startPastAlias, some reply =>
    d.postListEntries env uid domain startPastAlias resultCode reply
  | _, _ => (d, .Skip)

def pre (request : Request) (d : Daemon) : Daemon × Result :=
  ((d.onPreTransact P env uid request).1.tick, (d.onPreTransact P env uid request).2)

def post (request : Request) (resultCode : Int) (reply : Option Parcel) (d : Daemon) :
    Daemon × Result :=
  ((d.onPostTransact P env uid request resultCode reply).1.tick,
    (d.onPostTransact P env uid request resultCode reply).2)

end Daemon

/-! ## Sequential runs -/

/-- A request together with what the surroundings and the real keystore contribute to it. -/
structure Exchange where
  uid : Int
  request : Request
  preEnv : Env
  postEnv : Env
  resultCode : Int := 0
  reply : Option Parcel := none

/-- What the client gets: a local reply, or the real keystore's result unchanged. -/
inductive Answer where
  | fromHook (reply : LocalReply) (origin : Option Origin)
  | fromKeystore (resultCode : Int) (reply : Option Parcel)
deriving DecidableEq, Repr

/-- The entry that an answer was taken from. -/
def Answer.origin : Answer → Option Origin
  | fromHook _ origin => origin
  | fromKeystore .. => none

namespace Exchange

variable (P : Platform) (x : Exchange) (d : Daemon)

def preHook : Daemon × Result := d.pre P x.preEnv x.uid x.request

def postHook : Daemon × Result := d.post P x.postEnv x.uid x.request x.resultCode x.reply

/-- Whether the real keystore executes the request. -/
def isForwarded : Bool :=
  match (x.preHook P d).2 with
  | .OverrideReply .. => false
  | _ => true

end Exchange

/-- A step of a sequential run: a whole request, or a change of `target.txt`. -/
inductive SequentialStep where
  | exchange (x : Exchange)
  | targetChanged (modes : HashMap String Mode)

namespace Daemon

/-- One request from its pre-hook to its post-hook. -/
def serve (P : Platform) (d : Daemon) (x : Exchange) : Daemon × Answer :=
  match x.preHook P d with
  | (d', .OverrideReply _ reply origin) => (d', .fromHook reply origin)
  | (d', .Skip) => (d', .fromKeystore x.resultCode x.reply)
  | (d', .Continue) =>
    match x.postHook P d' with
    | (d'', .OverrideReply _ reply origin) => (d'', .fromHook reply origin)
    | (d'', _) => (d'', .fromKeystore x.resultCode x.reply)

/-- The state after a step of a sequential run. -/
def sequential (P : Platform) (d : Daemon) : SequentialStep → Daemon
  | .exchange x => (d.serve P x).1
  | .targetChanged modes => d.updateTargetPackages modes

/-- `PkgConfig.initialize`, which runs after the interceptors were set up; `none` is a file that does
not exist. -/
def initializeConfig (modes : Option (HashMap String Mode)) (keyboxes : Option (HashMap String KeyBox))
    (d : Daemon) : Daemon :=
  let d' := match modes with
    | some m => d.updateTargetPackages m
    | none => d
  match keyboxes with
  | some k => d'.updateKeyBox k
  | none => d'

/-- A fresh process over the same files. -/
def restart (d : Daemon) : Daemon :=
  { persistence := { files := d.persistence.files }, clock := d.clock + 1 }

end Daemon

/-! ## Interleaved runs -/

/-- A request between its hooks, with the route that its pre-hook selected if it is a
`generateKey`. -/
structure Transaction where
  uid : Int
  request : Request
  route : Option Route := none
deriving DecidableEq, Repr

/-- `starting` is the phase from the start of the process to the end of `PkgConfig.initialize`. -/
structure World where
  daemon : Daemon := {}
  inFlight : HashMap ℕ Transaction := ∅
  starting : Bool := true

inductive Event where
  /-- The pre-hook of a new request. -/
  | arrive (id : ℕ) (uid : Int) (request : Request) (env : Env)
  /-- The post-hook of a request. -/
  | complete (id : ℕ) (resultCode : Int) (reply : Option Parcel) (env : Env)
  /-- A request ends without its post-hook. -/
  | abandon (id : ℕ)
  /-- A call on a software operation. -/
  | operate (op : ℕ) (call : SoftwareOperationBinder.Call)
  | targetChanged (modes : HashMap String Mode)
  | keyboxChanged (keyboxes : HashMap String KeyBox)
  | packageManagerDied
  /-- The executor runs one task. -/
  | persist
  | restart
  | loadPersistedKeys (level : SecurityLevel) (env : Env)
  | initializeConfig (modes : Option (HashMap String Mode)) (keyboxes : Option (HashMap String KeyBox))

namespace Daemon

variable (P : Platform) (d : Daemon)

/-- The route selected by the pre-hook of a request. -/
def requestRoute (env : Env) (uid : Int) (request : Request) : Option Route :=
  match request with
  | .generateKey _ kd ak params => d.generateKeyRoute P env uid kd ak params
  | _ => none

/-- A call on the operation `op`, which charges the shared counters. -/
def operate (op : ℕ) (call : SoftwareOperationBinder.Call) : Daemon :=
  match d.operations[op]? with
  | none => d
  | some o =>
    { d with
      operations := d.operations.set op (o.call d.cache.usageRemaining call).1
      cache := { d.cache with usageRemaining := (o.call d.cache.usageRemaining call).2.1 } }

end Daemon

namespace World

variable (P : Platform) (w : World)

def withDaemon (d : Daemon) : World := { w with daemon := d }

def arrive (id : ℕ) (uid : Int) (request : Request) (env : Env) : World :=
  if w.inFlight.containsKey id then w
  else
    let (d, result) := w.daemon.pre P env uid request
    match result with
    | .Continue => { w with
        daemon := d
        inFlight := w.inFlight.insert id
          { uid := uid, request := request, route := w.daemon.requestRoute P env uid request } }
    | _ => w.withDaemon d

def complete (id : ℕ) (resultCode : Int) (reply : Option Parcel) (env : Env) : World :=
  match w.inFlight.lookup id with
  | none => w
  | some t => { w with
      daemon := (w.daemon.post P env t.uid t.request resultCode reply).1
      inFlight := w.inFlight.erase id }

def next (w : World) : Event → World
  | .arrive id uid request env => w.arrive P id uid request env
  | .complete id resultCode reply env => w.complete P id resultCode reply env
  | .abandon id => { w with inFlight := w.inFlight.erase id }
  | .operate op call => w.withDaemon (w.daemon.operate op call)
  | .targetChanged modes => w.withDaemon (w.daemon.updateTargetPackages modes)
  | .keyboxChanged keyboxes => w.withDaemon (w.daemon.updateKeyBox keyboxes)
  | .packageManagerDied => w.withDaemon
      { w.daemon with config := { w.daemon.config with uidPackages := ∅ } }
  | .persist => w.withDaemon { w.daemon with persistence := w.daemon.persistence.step }
  | .restart => { daemon := w.daemon.restart }
  | .loadPersistedKeys level env =>
    if w.starting then w.withDaemon (w.daemon.loadPersistedKeys P env level).tick else w
  | .initializeConfig modes keyboxes =>
    if w.starting then { w with daemon := w.daemon.initializeConfig modes keyboxes, starting := false }
    else w

/-- The world after a run. -/
abbrev run (w : World) (es : List Event) : World := Machine.run (next P) w es

end World

/-! ## A small device

Two apps, one keybox, certificates that all parse: the surroundings of the concrete runs below. -/

namespace Demo

def platform : Platform where
  x500Name := fun _ => none
  toCertificate := fun b => some ⟨b⟩
  toCertificates := fun b => if b.isEmpty then [] else [⟨b⟩]
  subject := fun _ => "CN=Demo"
  jca := { init := fun _ => none, iv := fun _ => none }
  osVersion := 160000

def owner : Int := 10001

def other : Int := 10002

def packageManager : PackageManager where
  getPackagesForUid := fun uid =>
    if uid = owner then some ["com.owner"] else if uid = other then some ["com.other"] else none
  checkPermission := fun _ _ _ => false

/-- The surroundings of a hook that draws the id `n`. -/
def env (n : Int) : Env :=
  { packageManager, nextLong := n, generateKeyPair := fun _ => some ⟨[1], [2]⟩
    buildCertificate := fun _ => some ⟨[3]⟩, hackLeaf := fun _ _ _ => some [⟨[4]⟩] }

def keyboxes : HashMap String KeyBox := AList.insert "EC" ⟨⟨[5], [6]⟩, [⟨[7]⟩]⟩ ∅

/-- The lines of `target.txt` for the two apps. -/
def modes (m m' : Mode) : HashMap String Mode :=
  AList.insert "com.owner" m (AList.insert "com.other" m' ∅)

/-- The start of the process with these modes and the keybox. -/
def start (m m' : Mode) : List Event := [.initializeConfig (some (modes m m')) (some keyboxes)]

def key : Key := ⟨owner, "a"⟩

def byAlias : KeyDescriptor := { keyAlias := some "a" }

def byId (n : Int) : KeyDescriptor := { domain := 4, nspace := n }

/-- An attested EC key for signing. -/
def ecParams : List KeyParameter :=
  [⟨Tag.ALGORITHM, .algorithm Algorithm.EC⟩, ⟨Tag.PURPOSE, .keyPurpose KeyPurpose.SIGN⟩,
    ⟨Tag.ATTESTATION_CHALLENGE, .blob [8]⟩]

def generate (params : List KeyParameter) : Request :=
  .generateKey .trustedEnvironment (some byAlias) none (some params)

/-- The reply of the real keystore to a `generateKey` that made the key `n`. -/
def created (n : Int) (certificate : Option Bytes) : Parcel :=
  .typedObject (.metadata { key := some (byId n), certificate := certificate })

/-- The reply of the real keystore to a `getKeyEntry` of the key `n`. -/
def entry (n : Int) (certificate : Option Bytes) : Parcel :=
  .typedObject (.entry { metadata := { key := some (byId n), certificate := certificate } })

end Demo

end TrickyStore
