import Distort.Go.Basic

/-!
What a request may ask of a volume: `volume_capability.go` and `filesystem.go`.
-/

namespace Distort.Csi

open Go

/-- `VolumeCapability_AccessMode_Mode`. -/
inductive AccessMode where
  | unknown | singleNodeWriter | singleNodeReaderOnly | multiNodeReaderOnly | multiNodeSingleWriter
  | multiNodeMultiWriter | singleNodeSingleWriter | singleNodeMultiWriter
  deriving DecidableEq, Repr

def AccessMode.string : AccessMode → Str
  | .unknown => "UNKNOWN"
  | .singleNodeWriter => "SINGLE_NODE_WRITER"
  | .singleNodeReaderOnly => "SINGLE_NODE_READER_ONLY"
  | .multiNodeReaderOnly => "MULTI_NODE_READER_ONLY"
  | .multiNodeSingleWriter => "MULTI_NODE_SINGLE_WRITER"
  | .multiNodeMultiWriter => "MULTI_NODE_MULTI_WRITER"
  | .singleNodeSingleWriter => "SINGLE_NODE_SINGLE_WRITER"
  | .singleNodeMultiWriter => "SINGLE_NODE_MULTI_WRITER"

def supportedAccessMode : AccessMode := .singleNodeWriter

structure MountVolume where
  fsType : Str
  mountFlags : List Str

/-- A capability without `mount` asks for a raw block volume. -/
structure VolumeCapability where
  mount : Option MountVolume
  accessMode : Option AccessMode

/-- `canonicalVolumeCapability`. -/
structure CanonicalVolumeCapability where
  accessMode : Str
  filesystem : Str
  deriving DecidableEq

/-- A `map[string]string`. -/
abbrev Params : Type := List (Str × Str)

def defaultFilesystem : Str := "ext4"
def filesystemParameter : Str := "fsType"
def csiFilesystemParameter : Str := "csi.storage.k8s.io/fstype"
def supportedFilesystems : List Str := ["ext4", "xfs"]

variable [StdLib]

def normalizeFilesystem (filesystem : Str) : Str := toLower (trimSpace filesystem)

def validateFilesystem (filesystem : Str) : Except Err Str :=
  if filesystem ∈ supportedFilesystems then .ok filesystem
  else .error (.errorf "unsupported filesystem %q: supported filesystems are ext4 and xfs" [.str filesystem])

/-- The filesystems that the parameters ask for, normalized. -/
def explicitFilesystems (parameters : Params) : List Str :=
  [filesystemParameter, csiFilesystemParameter].filterMap fun key =>
    match parameters.lookup key with
    | some value => if trimSpace value ≠ [] then some (normalizeFilesystem value) else none
    | none => none

/-- The filesystem that the capabilities ask for: the loop of `resolveFilesystem`. -/
def requestedFilesystem : List (Option VolumeCapability) → Str → Except Err Str
  | [], requested => .ok requested
  | capability :: rest, requested =>
    match capability.bind (·.mount) with
    | none => requestedFilesystem rest requested
    | some mount =>
      if trimSpace mount.fsType = [] then requestedFilesystem rest requested
      else
        let filesystem := normalizeFilesystem mount.fsType
        if requested ≠ [] ∧ filesystem ≠ requested then
          .error (.errorf "conflicting filesystem types in volume capabilities: %q and %q"
            [.str requested, .str filesystem])
        else requestedFilesystem rest filesystem

def resolveFilesystem (parameters : Params) (capabilities : List (Option VolumeCapability)) : Except Err Str :=
  match explicitFilesystems parameters with
  | first :: rest =>
    if rest.any (· ≠ first) then
      .error (.errorf "conflicting filesystem parameters: %s=%q and %s=%q"
        [.str filesystemParameter, .str ((parameters.lookup filesystemParameter).getD []),
         .str csiFilesystemParameter, .str ((parameters.lookup csiFilesystemParameter).getD [])])
    else validateFilesystem first
  | [] => do
    let requested ← requestedFilesystem capabilities []
    validateFilesystem (if requested = [] then defaultFilesystem else requested)

/-- The loop of `validateVolumeCapabilities`, at the capability with the given index. -/
def checkCapabilities : List (Option VolumeCapability) → ℕ → Str → Except Err Unit
  | [], _, _ => .ok ()
  | none :: _, index, _ => .error (.errorf "volume capability %d is missing" [.int index])
  | some capability :: rest, index, capabilityFilesystem =>
    match capability.mount with
    | none => .error (.errorf "raw block volumes are not supported" [])
    | some mount =>
      if mount.mountFlags ≠ [] then .error (.errorf "mount flags are not supported" [])
      else
        let currentFilesystem := normalizeFilesystem mount.fsType
        if mount.fsType ≠ [] ∧ capabilityFilesystem ≠ [] ∧ currentFilesystem ≠ capabilityFilesystem then
          .error (.errorf "conflicting filesystem types in volume capabilities: %q and %q"
            [.str capabilityFilesystem, .str currentFilesystem])
        else if capability.accessMode ≠ some supportedAccessMode then
          .error (.errorf "access mode %s is not supported; only %s is supported"
            [.str (capability.accessMode.getD .unknown).string, .str supportedAccessMode.string])
        else
          checkCapabilities rest (index + 1) (if mount.fsType ≠ [] then currentFilesystem else capabilityFilesystem)

def validateVolumeCapabilities (parameters : Params) (capabilities : List (Option VolumeCapability)) :
    Except Err CanonicalVolumeCapability := do
  if capabilities = [] then
    throw (.errorf "volume capabilities cannot be empty" [])
  checkCapabilities capabilities 0 []
  let filesystem ← resolveFilesystem parameters capabilities
  return { accessMode := supportedAccessMode.string, filesystem }

end Distort.Csi
