import Distort.Api.Calls

/-!
The interfaces of the storage plugins: `plugins/interface.go`.

A plugin is the record of its methods, each a program over the calls that it makes.
-/

namespace Distort.Agent

open Go Lib Api

/-- `ExportHealthChecker.CheckExport`. -/
abbrev CheckExport : Type :=
  (nqn blockPath portalIP : Str) → (portalPort : ℤ) → (options : Options) → Proc (Except Err Unit)

/-- `TargetBackend`; a backend that is no `ExportHealthChecker` has no `checkExport`. -/
structure TargetBackend where
  name : Str
  setupDevice : (pciAddress deviceName : Str) → (options : Options) → Proc (Except Err Unit)
  exportVolume : (volumeName blockPath portalIP : Str) → (portalPort : ℤ) → (options : Options) →
    Proc (Except Err Str)
  unexportVolume : (nqn : Str) → Proc (Except Err Unit)
  reconcileHostAccess : (nqn hostNQN : Str) → Proc (Except Err Unit)
  checkExport : Option CheckExport

/-- `VolumeManager`. -/
structure VolumeManager where
  name : Str
  setupStorage : (devicePath deviceName : Str) → Proc (Except Err Unit)
  createVolume : (devicePath deviceName volumeName : Str) → (sizeBytes : ℤ) → Proc (Except Err VolumeIdentity)
  deleteVolume : (devicePath deviceName volumeName : Str) → (identity : VolumeIdentity) → Proc (Except Err Unit)

/-! ### The registry -/

/-- The plugins that are registered. -/
structure Plugins where
  backends : List TargetBackend
  volumeManagers : List VolumeManager

def Plugins.getTargetBackend (plugins : Plugins) (name : Str) : Except Err TargetBackend :=
  match plugins.backends.find? fun b => b.name = name with
  | some b => .ok b
  | none => .error (.errorf "target backend %q not found" [.str name])

def Plugins.getVolumeManager (plugins : Plugins) (name : Str) : Except Err VolumeManager :=
  match plugins.volumeManagers.find? fun vm => vm.name = name with
  | some vm => .ok vm
  | none => .error (.errorf "volume manager %q not found" [.str name])

/-! ### Plugins that are one step each -/

/-- A backend whose methods are single calls. -/
def TargetBackend.atomic (name : Str) : TargetBackend where
  name := name
  setupDevice pciAddress deviceName options := Proc.plugin (.setupDevice pciAddress deviceName options)
  exportVolume volumeName blockPath portalIP portalPort options :=
    Proc.plugin (.exportVolume volumeName blockPath portalIP portalPort options)
  unexportVolume nqn := Proc.plugin (.unexportVolume nqn)
  reconcileHostAccess nqn hostNQN := Proc.plugin (.reconcileHostAccess nqn hostNQN)
  checkExport := some fun nqn blockPath portalIP portalPort options =>
    Proc.plugin (.checkExport nqn blockPath portalIP portalPort options)

def VolumeManager.atomic (name : Str) : VolumeManager where
  name := name
  setupStorage devicePath deviceName := Proc.plugin (.setupStorage devicePath deviceName)
  createVolume devicePath deviceName volumeName sizeBytes :=
    Proc.plugin (.createVolume devicePath deviceName volumeName sizeBytes)
  deleteVolume devicePath deviceName volumeName identity :=
    Proc.plugin (.deleteVolume devicePath deviceName volumeName identity)

/-- The plugins of the agent, each method one step. -/
def Plugins.atomic : Plugins where
  backends := [.atomic "spdk", .atomic "kernel"]
  volumeManagers := [.atomic "spdk-lvol", .atomic "parted"]

end Distort.Agent
