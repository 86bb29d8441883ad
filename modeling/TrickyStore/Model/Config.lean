import Mathlib.Data.List.Basic
import TrickyStore.Lib.HashMap

/-!
# Modes and routes

`PkgConfig` maps the packages of `target.txt` to modes and caches which packages a uid has.  The
predicates of `checkNeed` fill that cache, those of `hasTargetMode` only read it.  The routes of
`generateKey` and the policy of the `getKeyEntry` post-hook are pure functions of their answers.
-/

open Lib

namespace TrickyStore

inductive Mode where
  | AUTO
  | LEAF_HACK
  | GENERATE
deriving DecidableEq, Repr

inductive TeeState where
  | UNKNOWN
  | WORKING
  | BROKEN
deriving DecidableEq, Repr

namespace TeeProbeClassifier

/-- AUTO never forges, whatever the probe found. -/
def autoGenerateAllowed (_teeBroken : Option Bool) : Bool := false

/-- AUTO keeps real-keystore interception regardless of tee capability. -/
def autoLeafHackAllowed (_teeBroken : Option Bool) : Bool := true

end TeeProbeClassifier

/-- The answers of `PackageManager` while one hook runs; `none` when it is gone or knows no package
of the uid. -/
structure PackageManager where
  getPackagesForUid : Int → Option (List String)
  checkPermission : String → String → Int → Bool

structure PkgConfig where
  packageModes : HashMap String Mode := ∅
  uidPackages : HashMap Int (List String) := ∅
  teeBroken : Option Bool := none

namespace PkgConfig

variable (c : PkgConfig) (pm : PackageManager) (tee : TeeState) (uid : Int)

/-- `uidPackages.getOrPut`, as a value: the cached packages, else those `PackageManager` reports. -/
def packages : Option (List String) := (c.uidPackages.lookup uid).or (pm.getPackagesForUid uid)

/-- `uidPackages.getOrPut`, as an update: nothing is cached when `PackageManager` has no answer. -/
def getOrPut : PkgConfig :=
  match c.packages pm uid with
  | some ps => { c with uidPackages := c.uidPackages.insert uid ps }
  | none => c

/-- `storeTEEStatus`, without the status file. -/
def storeTEEStatus : PkgConfig :=
  match tee with
  | .UNKNOWN => c
  | .WORKING => { c with teeBroken := some false }
  | .BROKEN => { c with teeBroken := some true }

/-- What a call of `needHack` or `needGenerate` leaves behind, whatever it answers. -/
def checked : PkgConfig :=
  match c.packages pm uid with
  | some _ =>
    let c' := c.getOrPut pm uid
    if c'.teeBroken = none then c'.storeTEEStatus tee else c'
  | none => c

def checkNeed (targetMode : Mode) (autoPredicate : Bool) : Bool :=
  match c.packages pm uid with
  | some ps => ps.any fun pkg =>
      match c.packageModes.lookup pkg with
      | some m => m = targetMode || (m = .AUTO && autoPredicate)
      | none => false
  | none => false

def needHack : Bool :=
  c.checkNeed pm uid .LEAF_HACK (TeeProbeClassifier.autoLeafHackAllowed c.teeBroken)

def needGenerate : Bool :=
  c.checkNeed pm uid .GENERATE (TeeProbeClassifier.autoGenerateAllowed c.teeBroken)

def hasPermissionForUid (permission : String) : Bool :=
  match c.packages pm uid with
  | some ps => ps.any fun pkg => pm.checkPermission permission pkg (uid.tdiv 100000)
  | none => false

def hasTargetMode (mode : Mode) : Bool :=
  match c.uidPackages.lookup uid with
  | some ps => ps.any fun pkg => c.packageModes.lookup pkg = some mode
  | none => false

def isExplicitLeafHack : Bool := c.hasTargetMode uid .LEAF_HACK

def isExplicitGenerate : Bool := c.hasTargetMode uid .GENERATE

/-- Reads the cached packages only: false for a uid that `checkNeed` has not resolved yet. -/
def isPlainAuto : Bool :=
  if c.isExplicitGenerate uid || c.isExplicitLeafHack uid then false
  else c.hasTargetMode uid .AUTO

end PkgConfig

/-! ## Routes of `generateKey` -/

/-- The routes that `generateKey` logs as selected. -/
inductive Route where
  | generate
  | forwardSymmetric
  | forwardPlainAsymmetric
  | leafForwardAttestation
  | leafForward
  | passthroughRealTee
  | skip
deriving DecidableEq, Repr

namespace GenerateKeyRoute

def computeForceForge (needGenerate _hasDeviceIdAttestation _hasAttestKeyPurpose
    _attestationKeyDescriptorSet : Bool) : Bool := needGenerate

def selectTopLevelRoute (forceForge needHack explicitLeafHack hasAttestationChallenge
    needGenerate : Bool) : Route :=
  if forceForge then .generate
  else if needHack then
    if explicitLeafHack then
      if hasAttestationChallenge then .leafForwardAttestation else .leafForward
    else if !needGenerate then .passthroughRealTee
    else .skip
  else .skip

def isPassthroughRoute (route : Route) : Bool := route = .passthroughRealTee

end GenerateKeyRoute

/-! ## The policy of the `getKeyEntry` hooks -/

namespace GetKeyEntryPostPolicy

inductive Action where
  | PASSTHROUGH_UNMODIFIED
  | SERVE_CACHED_PATCH
  | PATCH_LEAF
deriving DecidableEq, Repr

structure PostHookInput where
  isPassthroughTracked : Bool
  hasCachedPatch : Bool
  hasGeneratedOwner : Bool
  explicitLeafHack : Bool
  autoPreserveUntrackedReal : Bool
  plainAutoMode : Bool := false

def decide (input : PostHookInput) : Action :=
  if input.isPassthroughTracked then .PASSTHROUGH_UNMODIFIED
  else if input.plainAutoMode then .PASSTHROUGH_UNMODIFIED
  else if input.hasCachedPatch || input.hasGeneratedOwner then .SERVE_CACHED_PATCH
  else if input.explicitLeafHack then .PATCH_LEAF
  else if input.autoPreserveUntrackedReal then .PASSTHROUGH_UNMODIFIED
  else .PATCH_LEAF

end GetKeyEntryPostPolicy

namespace GetKeyEntryCurrentModeAuthority

def shouldServeGrantCachedResponse (plainAutoGrantee : Bool) : Bool := !plainAutoGrantee

end GetKeyEntryCurrentModeAuthority

/-! ## What the predicates read -/

namespace PkgConfig

variable {c : PkgConfig} {pm : PackageManager} {tee : TeeState} {uid : Int}

@[simp] theorem storeTEEStatus_uidPackages :
    (c.storeTEEStatus tee).uidPackages = c.uidPackages := by
  cases tee <;> rfl

@[simp] theorem storeTEEStatus_packageModes :
    (c.storeTEEStatus tee).packageModes = c.packageModes := by
  cases tee <;> rfl

theorem checked_uidPackages :
    (c.checked pm tee uid).uidPackages = (c.getOrPut pm uid).uidPackages := by
  unfold checked getOrPut
  cases c.packages pm uid with
  | none => rfl
  | some ps =>
    simp only
    split_ifs <;> simp

@[simp] theorem getOrPut_packageModes : (c.getOrPut pm uid).packageModes = c.packageModes := by
  unfold getOrPut
  cases c.packages pm uid <;> rfl

@[simp] theorem checked_packageModes :
    (c.checked pm tee uid).packageModes = c.packageModes := by
  unfold checked
  cases c.packages pm uid with
  | none => rfl
  | some ps =>
    simp only
    split_ifs <;> simp

theorem getOrPut_lookup (u : Int) :
    (c.getOrPut pm uid).uidPackages.lookup u =
      if u = uid then c.packages pm uid else c.uidPackages.lookup u := by
  unfold getOrPut
  cases h : c.packages pm uid with
  | none =>
    have hn : c.uidPackages.lookup uid = none := (Option.or_eq_none_iff.1 h).1
    split_ifs with hu
    · subst hu
      exact hn
    · rfl
  | some ps =>
    simp only [HashMap.lookup_insert_ite]

theorem checked_lookup (u : Int) :
    (c.checked pm tee uid).uidPackages.lookup u =
      if u = uid then c.packages pm uid else c.uidPackages.lookup u := by
  rw [checked_uidPackages, getOrPut_lookup]

/-- Resolving the packages does not change which packages a uid has. -/
@[simp] theorem checked_packages (u : Int) :
    (c.checked pm tee uid).packages pm u = c.packages pm u := by
  unfold packages
  rw [checked_lookup]
  split_ifs with h
  · subst h
    unfold packages
    cases c.uidPackages.lookup u <;> cases pm.getPackagesForUid u <;> rfl
  · rfl

@[simp] theorem checked_needHack (u : Int) :
    (c.checked pm tee uid).needHack pm u = c.needHack pm u := by
  simp only [needHack, checkNeed, TeeProbeClassifier.autoLeafHackAllowed, checked_packages,
    checked_packageModes]

@[simp] theorem checked_needGenerate (u : Int) :
    (c.checked pm tee uid).needGenerate pm u = c.needGenerate pm u := by
  simp only [needGenerate, checkNeed, TeeProbeClassifier.autoGenerateAllowed, checked_packages,
    checked_packageModes]

end PkgConfig

end TrickyStore
