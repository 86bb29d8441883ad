import TrickyStore.Lib.Watch
import TrickyStore.Model.KeyboxXml
import TrickyStore.Model.PatchLevels
import TrickyStore.Model.World

/-!
# The configuration is read and watched

`initialize` reads the three files and then starts the observer, which reads a file again when it was
written or moved in, and clears what it had set when it was deleted or moved out.  The hooks run on other
threads all the time.
-/

open Lib Watch

namespace TrickyStore

def TARGET_FILE : String := "target.txt"

def KEYBOX_FILE : String := "keybox.xml"

def PATCHLEVEL_FILE : String := "security_patch.txt"

/-- The daemon with its requests, and the patch levels. -/
structure Configured where
  world : World := {}
  levels : PatchLevels := {}

/-- The events that are none of the configuration. -/
def Event.setsConfig : Event → Bool
  | .targetChanged _ | .keyboxChanged _ | .restart | .initializeConfig .. => true
  | _ => false

/-- `null`, a file that cannot be read, or its text. -/
def fileSeen {α : Type*} : Seen α → Option (Option α)
  | .removed => none
  | .missing | .unreadable => some none
  | .text t => some (some t)

/-- `updatePatchLevel` asks first whether the file exists. -/
def existingFileOf {α : Type*} : Seen α → Option (Option α)
  | .removed | .missing => none
  | .unreadable => some none
  | .text t => some (some t)

namespace Configured

variable (lib : PemParsers) (xml : List Char → List XmlEvent) (P : Platform) (c : Configured)

def withDaemon (d : Daemon) : Configured := { c with world := c.world.withDaemon d }

/-- `onEvent`, and the same updates in `initialize`. -/
def onEvent (path : String) (f : Seen (List Char)) : Configured :=
  if path = TARGET_FILE then
    c.withDaemon { c.world.daemon with config := c.world.daemon.config.updateTargetPackages (fileSeen f) }
  else if path = KEYBOX_FILE then
    c.withDaemon (c.world.daemon.updateKeyBoxFile lib ((fileSeen f).map fun text => text.map xml))
  else if path = PATCHLEVEL_FILE then { c with levels := c.levels.updatePatchLevel (existingFileOf f) }
  else c

/-- `initialize` for a file that does not exist. -/
def initializeAbsent (path : String) : Configured :=
  if path = PATCHLEVEL_FILE then { c with levels := c.levels.updatePatchLevel none } else c

def next (e : { e : Event // e.setsConfig = false }) : Configured :=
  { c with world := c.world.next P e.1 }

end Configured

end TrickyStore
