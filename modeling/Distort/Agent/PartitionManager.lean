import Distort.Agent.Attachment
import Distort.Capacity
import Distort.Health
import Distort.Options

/-!
Provisioning and deleting partitions on their node: `partition_manager.go`, from line 31 on, without
the attachment.

Every read goes through the informer cache of the agent.  A function of the source that changes the
partition it was given returns the partition as it leaves it.
-/

namespace Distort.Agent

open Go Lib Lib.Kube Api Proc

def partitionFinalizer : Str := "storage.distort.io/partition-cleanup"
def claimAuthorizationCondition : Str := "ClaimAuthorized"
def placementNotAuthorizedReason : Str := "PlacementNotAuthorized"
def partitionProvisioningCondition : Str := "ProvisioningReady"
def spdkTargetBackend : Str := "spdk"

/-- `ctrl.Result`: the seconds after which the reconciliation comes again, or zero. -/
abbrev Result : Type := ℤ

def exportedHealthInterval : Result := 15
def partitionRetryInterval : Result := 5

def partitionHasTerminalFailure (partition : NVMePartition) : Bool :=
  match findStatusCondition partition.status.conditions partitionProvisioningCondition with
  | none => false
  | some condition =>
    condition.status = .false && condition.observedGeneration = partition.metadata.generation &&
      hasPrefix condition.reason "Terminal"

/-- The external ID and the volume handle. -/
def identitiesForPartition (partition : NVMePartition) : Str × Str :=
  let derived := Distort.VolumeIdentity.new partition.metadata.ns partition.metadata.name partition.metadata.uid
  let legacy := Distort.VolumeIdentity.externalIDFromNQN partition.status.nqn
  let externalID :=
    if partition.status.externalID ≠ [] then partition.status.externalID
    else if legacy.2 then legacy.1
    else match derived with
      | .ok identity => identity.externalID
      | .error _ => partition.metadata.name
  let volumeID :=
    match derived with
    | .ok identity => if partition.status.volumeID = [] then identity.volumeHandle else partition.status.volumeID
    | .error _ => partition.status.volumeID
  (externalID, volumeID)

def backendVolumeIdentity (status : NVMePartitionStatus) : VolumeIdentity where
  backendVolumeID := status.backendVolumeID
  capacityBytes := status.allocatedCapacity
  baseBdev := status.spdkBaseBdev
  volumeStoreName := status.spdkLvstoreName
  volumeStoreUUID := status.spdkLvstoreUUID
  volumeName := status.spdkLvolName
  volumeUUID := status.spdkLvolUUID

/-! ### Status updates -/

def updatePartitionStatus (key : Key) (updateFn : NVMePartitionStatus → NVMePartitionStatus) : Proc (Except Err Unit) :=
  (get .partition .cache key).check fail fun latest =>
  (patchStatus .partition latest { latest with status := updateFn latest.status }).check fail fun _ => done ()

def updateDeviceStatus (key : Key) (updateFn : NVMeDeviceStatus → NVMeDeviceStatus) : Proc (Except Err Unit) :=
  (get .device .cache key).check fail fun latest =>
  (patchStatus .device latest { latest with status := updateFn latest.status }).check fail fun _ => done ()

/-- The status with a condition set. -/
def withCondition (condition : Condition) (status : NVMePartitionStatus) : NVMePartitionStatus :=
  { status with conditions := setStatusCondition status.conditions condition }

def setClaimAuthorizationCondition (partition : NVMePartition) (conditionStatus : ConditionStatus)
    (reason message : Str) : Proc (Except Err Unit) :=
  updatePartitionStatus partition.key (withCondition {
    type := claimAuthorizationCondition
    status := conditionStatus
    observedGeneration := partition.metadata.generation
    reason := reason
    message := message })

/-- Nothing was carved or named for the partition yet, and its placement is not authorized. -/
def placementUnauthorized (partition : NVMePartition) : Bool :=
  partition.status.externalID = [] && partition.status.backendVolumeID = [] && !PlacementAuth.isAuthorized partition

def rejectUnauthorizedProvisioning (partition : NVMePartition) (err : Err) : Proc (Except Err Result) :=
  let reason : Str := if placementUnauthorized partition then placementNotAuthorizedReason else "ClaimOwnershipInvalid"
  (setClaimAuthorizationCondition partition .false reason err.text).check fail fun _ => done partitionRetryInterval

def recordProvisioningFailure (partition : NVMePartition) (reason : Str) (err : Err) (terminal : Bool) :
    Proc (Except Err Result) :=
  let reason : Str := (if terminal then str "Terminal" else str "Retryable") ++ reason
  (updatePartitionStatus partition.key fun status => withCondition {
      type := partitionProvisioningCondition
      status := .false
      observedGeneration := partition.metadata.generation
      reason := reason
      message := err.text } { status with state := .failed }).check fail fun _ =>
  if terminal then done 0 else fail err

def terminalProvisioningFailure (partition : NVMePartition) (reason : Str) (err : Err) : Proc (Except Err Result) :=
  recordProvisioningFailure partition reason err true

def retryableProvisioningFailure (partition : NVMePartition) (reason : Str) (err : Err) : Proc (Except Err Result) :=
  recordProvisioningFailure partition reason err false

/-! ### Plugins -/

structure ResolvedPartitionPlugins where
  targetBackendName : Str
  volumeManagerName : Str
  targetBackend : TargetBackend
  volumeManager : VolumeManager

/-- The plugins of the partition, or the reason of the failure with its error. -/
def resolvePartitionPlugins (plugins : Plugins) (partition : NVMePartition) :
    Except (Str × Err) ResolvedPartitionPlugins :=
  let targetBackendName := if partition.spec.targetBackend = [] then spdkTargetBackend else partition.spec.targetBackend
  match plugins.getTargetBackend targetBackendName with
  | .error err => .error ("InvalidBackend", err)
  | .ok targetBackend =>
    let volumeManagerName : Str :=
      if partition.spec.volumeManager = [] ∨ partition.spec.volumeManager = "partition" then
        if targetBackendName = spdkTargetBackend then "spdk-lvol" else "parted"
      else partition.spec.volumeManager
    match plugins.getVolumeManager volumeManagerName with
    | .error err => .error ("InvalidVolumeManager", err)
    | .ok volumeManager => .ok ⟨targetBackendName, volumeManagerName, targetBackend, volumeManager⟩

variable {partition : NVMePartition} {resolved : ResolvedPartitionPlugins}

theorem mem_of_resolve {plugins : Plugins} (h : resolvePartitionPlugins plugins partition = .ok resolved) :
    resolved.targetBackend ∈ plugins.backends ∧ resolved.volumeManager ∈ plugins.volumeManagers := by
  simp only [resolvePartitionPlugins, Plugins.getTargetBackend, Plugins.getVolumeManager] at h
  cases hb : plugins.backends.find? fun b => b.name = if partition.spec.targetBackend = [] then spdkTargetBackend
      else partition.spec.targetBackend with
  | none => simp [hb] at h
  | some b =>
    simp only [hb] at h
    split at h
    · cases h
    rename_i vm hvm
    cases h
    refine ⟨List.mem_of_find?_eq_some hb, ?_⟩
    split at hvm
    · rename_i hfound
      cases hvm
      exact List.mem_of_find?_eq_some hfound
    · cases hvm

variable [StdLib]

/-! ### Authorization -/

/-- The address under which this node exports. -/
def rdmaEndpoint (nodeName : Str) : Proc (Except Err Str) :=
  (get .node .cache ⟨[], nodeName⟩).check
    (fun err => fail (.wrapf "resolve RDMAStorageNode %s: %w" [.str nodeName] err)) fun node =>
  now >>= fun t =>
  match Health.validate node t with
  | .error err => fail err
  | .ok _ => done node.spec.rdmaIP

/-- `claimReferencesEqual`: two references that are there and equal. -/
def claimReferencesEqual (a b : Option ClaimRef) : Bool :=
  match a, b with
  | some a, some b => a.ns = b.ns && a.name = b.name && a.uid = b.uid
  | _, _ => false

/-- Something was named or carved for the partition before. -/
def recoveringExistingAllocation (partition : NVMePartition) : Bool :=
  partition.status.externalID ≠ [] || partition.status.backendVolumeID ≠ []

/-- The checks on the claim of the partition; those of a live binding are left out while recovering. -/
def checkClaim (partition : NVMePartition) (claimRef : ClaimRef) (claim : NVMeDeviceClaim) : Except Err Unit :=
  if claim.metadata.uid ≠ claimRef.uid then
    .error (.errorf "NVMeDeviceClaim %s UID does not match the allocation" [.str claimRef.key.string])
  else if claim.metadata.deletionTimestamp then
    .error (.errorf "NVMeDeviceClaim %s is being deleted" [.str claimRef.key.string])
  else if claim.status.matchedDevice = [] ∨ claim.status.nodeName ≠ partition.spec.nodeName ∨
      !equalFold claim.spec.serialNumber partition.spec.parentDeviceSerialNumber then
    .error (.errorf "NVMeDeviceClaim %s does not match the assigned device identity" [.str claimRef.key.string])
  else if !claim.status.active && !recoveringExistingAllocation partition then
    .error (.errorf "NVMeDeviceClaim %s is not actively bound to NVMeDevice %s"
      [.str claimRef.key.string, .str claim.status.matchedDevice])
  else .ok ()

/-- The checks on the device that the claim has matched. -/
def checkDevice (partition : NVMePartition) (device : NVMeDevice) : Except Err Unit :=
  if device.spec.nodeName ≠ partition.spec.nodeName ∨
      !equalFold device.spec.serialNumber partition.spec.parentDeviceSerialNumber then
    .error (.errorf "NVMeDevice %s does not match the assigned node and serial" [.str device.metadata.name])
  else if device.status.state ≠ .claimed && !recoveringExistingAllocation partition then
    .error (.errorf "NVMeDevice %s is not claimed" [.str device.metadata.name])
  else if !claimReferencesEqual device.status.claimRef partition.spec.claimRef then
    .error (.errorf "NVMeDevice %s is owned by a different claim" [.str device.metadata.name])
  else .ok ()

/-- What can be checked on the partition alone: its claim reference. -/
def checkPlacement (partition : NVMePartition) : Except Err ClaimRef :=
  if !recoveringExistingAllocation partition && !PlacementAuth.isAuthorized partition then
    .error (.errorf "NVMePartition %s placement was not authorized by the management controller"
      [.str partition.metadata.name])
  else
    match partition.spec.claimRef with
    | none => .error (.errorf "NVMePartition %s has no complete owning claim reference" [.str partition.metadata.name])
    | some claimRef =>
      if claimRef.ns = [] ∨ claimRef.name = [] ∨ claimRef.uid = [] then
        .error (.errorf "NVMePartition %s has no complete owning claim reference" [.str partition.metadata.name])
      else if partition.spec.parentDeviceSerialNumber = [] then
        .error (.errorf "NVMePartition %s is missing ParentDeviceSerialNumber" [.str partition.metadata.name])
      else .ok claimRef

def verifyProvisioningAuthorization (partition : NVMePartition) : Proc (Except Err NVMeDevice) :=
  match checkPlacement partition with
  | .error err => fail err
  | .ok claimRef =>
    (get .claim .cache claimRef.key).check
      (fun err => fail (.wrapf "resolve owning NVMeDeviceClaim %s: %w" [.str claimRef.key.string] err)) fun claim =>
    match checkClaim partition claimRef claim with
    | .error err => fail err
    | .ok _ =>
      (get .device .cache ⟨[], claim.status.matchedDevice⟩).check
        (fun err => fail (.wrapf "resolve parent NVMeDevice %s: %w" [.str claim.status.matchedDevice] err)) fun device =>
      match checkDevice partition device with
      | .error err => fail err
      | .ok _ => done device

/-! ### Deletion -/

/-- The device is the one that the partition was placed on. -/
def isParent (partition : NVMePartition) (device : NVMeDevice) : Bool :=
  device.spec.nodeName = partition.spec.nodeName &&
    equalFold device.spec.serialNumber partition.spec.parentDeviceSerialNumber

/-- The last part of `assignedDeviceName`: the only device with the node and the serial number. -/
def listedDeviceName (nodeName : Str) (partition : NVMePartition) : Proc (Except Err Str) :=
  (list .device .cache).check (fun err => fail (.wrapf "list NVMeDevices during cleanup: %w" [] err)) fun devices =>
  match (devices.filter (isParent partition)).map (·.metadata.name) with
  | [] => done (nodeName ++ str "-" ++ toLower partition.spec.parentDeviceSerialNumber)
  | [deviceName] => done deviceName
  | found =>
    fail (.errorf "found %d NVMeDevices for node %s and serial %s during cleanup, want exactly one"
      [.int found.length, .str partition.spec.nodeName, .str partition.spec.parentDeviceSerialNumber])

def assignedDeviceName (nodeName : Str) (partition : NVMePartition) : Proc (Except Err Str) :=
  match partition.spec.claimRef with
  | none => listedDeviceName nodeName partition
  | some claimRef =>
    if claimRef.ns ≠ [] ∧ claimRef.name ≠ [] ∧ claimRef.uid ≠ [] then
      (get .claim .cache claimRef.key).check
        (fun err =>
          if err.isNotFound then listedDeviceName nodeName partition
          else fail (.wrapf "resolve owning NVMeDeviceClaim %s during cleanup: %w" [.str claimRef.key.string] err))
        fun claim =>
      if claim.metadata.uid ≠ claimRef.uid then
        fail (.errorf "NVMeDeviceClaim %s UID does not match the allocation" [.str claimRef.key.string])
      else if claim.status.matchedDevice ≠ [] ∧ claim.status.nodeName = partition.spec.nodeName ∧
          equalFold claim.spec.serialNumber partition.spec.parentDeviceSerialNumber then
        done claim.status.matchedDevice
      else listedDeviceName nodeName partition
    else listedDeviceName nodeName partition

/-- The path and the name of the device. -/
def resolveDeletionDevice (nodeName : Str) (partition : NVMePartition) (targetBackendName : Str) :
    Proc (Except Err (Str × Str)) :=
  if targetBackendName = spdkTargetBackend then
    if partition.status.spdkBaseBdev ≠ [] then done (partition.status.spdkBaseBdev, partition.status.spdkBaseBdev)
    else (assignedDeviceName nodeName partition).check fail fun deviceName => done (deviceName, deviceName)
  else
    (node .discoverNVMe).check
      (fun partly => fail (.wrapf "discover NVMe devices during teardown: %w" [] partly.2)) fun devices =>
    match devices.find? fun d => equalFold d.serialNumber partition.spec.parentDeviceSerialNumber with
    | some device => done (str "/dev/" ++ device.name ++ str "n1", device.name)
    | none =>
      fail (.errorf "NVMe device with serial %s was not found during teardown"
        [.str partition.spec.parentDeviceSerialNumber])

/-- Another live partition is on the same device. -/
def sharesDevice (partition candidate : NVMePartition) : Bool :=
  candidate.spec.parentDeviceSerialNumber = partition.spec.parentDeviceSerialNumber &&
    (candidate.metadata.ns ≠ partition.metadata.ns || candidate.metadata.name ≠ partition.metadata.name) &&
    !candidate.metadata.deletionTimestamp

def clearInactiveBackend (nodeName : Str) (partition : NVMePartition) (targetBackendName : Str) :
    Proc (Except Err Unit) :=
  if targetBackendName = spdkTargetBackend then done ()
  else
    (list .partition .cache).check
      (fun err => fail (.wrapf "list NVMePartitions during teardown: %w" [] err)) fun partitions =>
    if partitions.any (sharesDevice partition) then done ()
    else
      (assignedDeviceName nodeName partition).check fail fun deviceName =>
      updateDeviceStatus ⟨[], deviceName⟩ fun status => { status with activeBackend := [] }

/-- The volume is taken off its device; nothing is done for a partition that was never placed. -/
def deleteBackendVolume (nodeName : Str) (partition : NVMePartition) (resolved : ResolvedPartitionPlugins)
    (externalID : Str) : Proc (Except Err Unit) :=
  if partition.spec.parentDeviceSerialNumber ≠ [] then
    (resolveDeletionDevice nodeName partition resolved.targetBackendName).check fail fun device =>
    (resolved.volumeManager.deleteVolume device.1 device.2 externalID (backendVolumeIdentity partition.status)).check
      fail fun _ =>
    clearInactiveBackend nodeName partition resolved.targetBackendName
  else done ()

/-- The finalizer is taken off the partition that the cache shows now. -/
def removePartitionFinalizer (key : Key) : Proc (Except Err Result) :=
  (get .partition .cache key).check (fun err => if err.isNotFound then done 0 else fail err) fun latest =>
  (patch .partition latest (latest.removeFinalizer partitionFinalizer)).check fail fun _ => done 0

def reconcilePartitionDeletion (nodeName : Str) (key : Key) (partition : NVMePartition)
    (resolved : ResolvedPartitionPlugins) (externalID : Str) : Proc (Except Err Result) :=
  if !partition.containsFinalizer partitionFinalizer then done 0
  else
    let nqn := if partition.status.nqn = [] then Distort.VolumeIdentity.nqn externalID else partition.status.nqn
    (resolved.targetBackend.unexportVolume nqn).check fail fun _ =>
    (releaseAttachmentAfterUnexport partition).check fail fun _ =>
    (deleteBackendVolume nodeName partition resolved externalID).check fail fun _ =>
    removePartitionFinalizer key

/-! ### Provisioning -/

/-- The finalizer is added to the partition; the answer of the server takes its place. -/
def addPartitionFinalizer (partition : NVMePartition) : Proc (Except Err NVMePartition) :=
  if partition.containsFinalizer partitionFinalizer then done partition
  else patch .partition partition (partition.addFinalizer partitionFinalizer)

def ensurePartitionIdentityAndFinalizer (key : Key) (partition : NVMePartition) (externalID volumeID : Str) :
    Proc (Except Err NVMePartition) :=
  if partition.status.externalID ≠ externalID ∨ partition.status.volumeID ≠ volumeID then
    (updatePartitionStatus key fun status => { status with externalID, volumeID }).check fail fun _ =>
    addPartitionFinalizer { partition with status := { partition.status with externalID, volumeID } }
  else addPartitionFinalizer partition

/-- What the health check of an exported partition leads to. -/
inductive ExportHealth where
  | healthy | unobservable | unhealthy

/-- The health check, if the backend has one. -/
def checkExportHealth (partition : NVMePartition) (backend : TargetBackend) (portalIP : Str) : Proc ExportHealth :=
  match backend.checkExport with
  | none => .ret .healthy
  | some checkExport =>
    checkExport partition.status.nqn partition.status.backendVolumeID portalIP partition.status.portalPort
      partition.spec.targetOptions >>= fun checked =>
    match checked with
    | .ok _ => .ret .healthy
    | .error err => .ret (if err.kind = .observation then .unobservable else .unhealthy)

/-- The result, or nothing if the partition is still to be provisioned. -/
def reconcileExportedPartition (nodeName : Str) (partition : NVMePartition) (backend : TargetBackend) :
    Proc (Except Err (Option Result)) :=
  if partition.status.state ≠ .exported then done none
  else
    (rdmaEndpoint nodeName).check fail fun portalIP =>
    checkExportHealth partition backend portalIP >>= fun health =>
    match health with
    | .unobservable => done (some partitionRetryInterval)
    | .unhealthy => done none
    | .healthy =>
      (reconcileAttachmentAccess partition backend).check fail fun _ => done (some exportedHealthInterval)

/-- The path and the name of the device, or the reason of the failure with its error. -/
def findProvisioningDevice (partition : NVMePartition) (targetBackendName : Str) :
    Proc (Except (Str × Err) (Str × Str)) :=
  (node .discoverNVMe).check
    (fun partly => fail (str "DiscoveryFailed", .wrapf "discover NVMe devices: %w" [] partly.2)) fun devices =>
  match devices.find? fun d => equalFold d.serialNumber partition.spec.parentDeviceSerialNumber with
  | some device =>
    done (if targetBackendName = spdkTargetBackend then device.name else str "/dev/" ++ device.name ++ str "n1",
      device.name)
  | none =>
    fail (str "DeviceNotFound", .errorf "NVMe device with serial %s not found on host"
      [.str partition.spec.parentDeviceSerialNumber])

/-- The status with what addresses the volume. -/
def withVolumeIdentity (created : VolumeIdentity) (status : NVMePartitionStatus) : NVMePartitionStatus :=
  { status with
    backendVolumeID := created.backendVolumeID
    allocatedCapacity := created.capacityBytes
    spdkBaseBdev := created.baseBdev
    spdkLvstoreName := created.volumeStoreName
    spdkLvstoreUUID := created.volumeStoreUUID
    spdkLvolName := created.volumeName
    spdkLvolUUID := created.volumeUUID }

def persistBackendVolumeIdentity (key : Key) (partition : NVMePartition) (created : VolumeIdentity) :
    Proc (Except Err NVMePartition) :=
  if backendVolumeIdentity partition.status = created then done partition
  else
    (updatePartitionStatus key (withVolumeIdentity created)).check fail fun _ =>
    done { partition with status := withVolumeIdentity created partition.status }

/-- Goes on if the partition is still authorized. -/
def whileAuthorized (partition : NVMePartition) (k : NVMeDevice → Proc (Except Err Result)) :
    Proc (Except Err Result) :=
  (verifyProvisioningAuthorization partition).check (rejectUnauthorizedProvisioning partition) k

/-- The last part of `provisionPartition`: the volume is exported. -/
def exportPartition (nodeName : Str) (key : Key) (partition : NVMePartition) (resolved : ResolvedPartitionPlugins)
    (externalID backendVolumeID : Str) : Proc (Except Err Result) :=
  (rdmaEndpoint nodeName).check (retryableProvisioningFailure partition "RDMAEndpointUnavailable") fun portalIP =>
  whileAuthorized partition fun _ =>
  (resolved.targetBackend.exportVolume externalID backendVolumeID portalIP 4420 partition.spec.targetOptions).check
    (retryableProvisioningFailure partition "ExportFailed") fun nqn =>
  (updatePartitionStatus key fun status => withCondition {
      type := partitionProvisioningCondition
      status := .true
      observedGeneration := partition.metadata.generation
      reason := "Provisioned"
      message := "The NVMe partition is provisioned and exported" }
    { status with state := .exported, nqn, portalIP, portalPort := 4420 }).check fail fun _ =>
  done exportedHealthInterval

/-- The second part of `provisionPartition`: the volume is carved. -/
def carveVolume (nodeName : Str) (key : Key) (partition : NVMePartition) (resolved : ResolvedPartitionPlugins)
    (externalID devicePath deviceName : Str) (requestedAllocation : ℤ) : Proc (Except Err Result) :=
  (resolved.volumeManager.setupStorage devicePath deviceName).check
    (retryableProvisioningFailure partition "StorageSetupFailed") fun _ =>
  whileAuthorized partition fun _ =>
  (resolved.volumeManager.createVolume devicePath deviceName externalID partition.spec.size).check
    (retryableProvisioningFailure partition "VolumeCreationFailed") fun created =>
  if created.backendVolumeID = [] then
    terminalProvisioningFailure partition "InvalidVolumeIdentity"
      (.errorf "volume manager %s returned an empty backend volume ID" [.str resolved.volumeManagerName])
  else if created.capacityBytes < requestedAllocation then
    terminalProvisioningFailure partition "InsufficientAllocation"
      (.errorf "volume manager %s allocated %d bytes, below required %d"
        [.str resolved.volumeManagerName, .int created.capacityBytes, .int requestedAllocation])
  else
    (persistBackendVolumeIdentity key partition created).check fail fun partition =>
    exportPartition nodeName key partition resolved externalID created.backendVolumeID

/-- The device is locked to the backend. -/
def claimBackend (device : NVMeDevice) (targetBackendName : Str) : Proc (Except Err Unit) :=
  if device.status.activeBackend = [] then
    updateDeviceStatus ⟨[], device.metadata.name⟩ fun status => { status with activeBackend := targetBackendName }
  else done ()

def provisionPartition (nodeName : Str) (key : Key) (partition : NVMePartition) (resolved : ResolvedPartitionPlugins)
    (externalID : Str) (requestedAllocation : ℤ) : Proc (Except Err Result) :=
  whileAuthorized partition fun device =>
  (rdmaEndpoint nodeName).check (retryableProvisioningFailure partition "RDMAEndpointUnavailable") fun _ =>
  if device.status.activeBackend ≠ [] ∧ device.status.activeBackend ≠ resolved.targetBackendName then
    retryableProvisioningFailure partition "BackendBusy"
      (.errorf "device is currently locked to backend %s, requested %s"
        [.str device.status.activeBackend, .str resolved.targetBackendName])
  else
    (resolved.targetBackend.setupDevice device.spec.pciAddress device.metadata.name partition.spec.targetOptions).check
      (retryableProvisioningFailure partition "DeviceSetupFailed") fun _ =>
    (findProvisioningDevice partition resolved.targetBackendName).check
      (fun failure => retryableProvisioningFailure partition failure.1 failure.2) fun path =>
    whileAuthorized partition fun _ =>
    (claimBackend device resolved.targetBackendName).check
      (retryableProvisioningFailure partition "DeviceStatusUpdateFailed") fun _ =>
    carveVolume nodeName key partition resolved externalID path.1 path.2 requestedAllocation

/-! ### `Reconcile` -/

/-- A partition of this node that is not being deleted. -/
def reconcileLive (nodeName : Str) (req : Key) (partition : NVMePartition) (resolved : ResolvedPartitionPlugins)
    (externalID volumeID : Str) : Proc (Except Err Result) :=
  match Options.validate resolved.targetBackendName partition.spec.targetOptions with
  | .error err => terminalProvisioningFailure partition "InvalidOptions" err
  | .ok _ =>
    match Capacity.roundUp partition.spec.size with
    | .error err =>
      terminalProvisioningFailure partition "InvalidCapacity"
        (.wrapf "invalid partition capacity %q: %w" [.int partition.spec.size] err)
    | .ok requestedAllocation =>
      whileAuthorized partition fun _ =>
      (setClaimAuthorizationCondition partition .true "ClaimOwnershipVerified"
        "The live owning claim authorizes this allocation").check fail fun _ =>
      (ensurePartitionIdentityAndFinalizer req partition externalID volumeID).check fail fun partition =>
      (reconcileExportedPartition nodeName partition resolved.targetBackend).check fail fun handled =>
      match handled with
      | some result => done result
      | none => provisionPartition nodeName req partition resolved externalID requestedAllocation

def reconcile (plugins : Plugins) (nodeName : Str) (req : Key) : Proc (Except Err Result) :=
  (get .partition .cache req).check (fun err => if err.isNotFound then done 0 else fail err) fun partition =>
  if partition.spec.nodeName ≠ nodeName then done 0
  else if !partition.metadata.deletionTimestamp && partitionHasTerminalFailure partition then done 0
  else
    match resolvePartitionPlugins plugins partition with
    | .error (reason, err) =>
      if !partition.metadata.deletionTimestamp then terminalProvisioningFailure partition reason err else fail err
    | .ok resolved =>
      let identities := identitiesForPartition partition
      if partition.metadata.deletionTimestamp then
        reconcilePartitionDeletion nodeName req partition resolved identities.1
      else reconcileLive nodeName req partition resolved identities.1 identities.2

/-! ### What is asked for -/

/-- What every part of a pass may do: a read of any kind. -/
def looksUp : Call → Bool
  | .api (.get _ _ _) | .api (.list _ _) | .proc .now | .node .discoverNVMe => true
  | _ => false

section only

variable {P : Call → Prop} (hP : ∀ c, looksUp c = true → P c)
  (hD : ∀ base obj, P (.api (.patchStatus .device base obj)))
include hP

include hD in
omit [StdLib] in
theorem updateDeviceStatus_only (key : Key) (f : NVMeDeviceStatus → NVMeDeviceStatus) :
    (updateDeviceStatus key f).Only P :=
  Prog.Only.next (only_op (hP _ rfl)) fun _ => Prog.Only.next (only_op (hD _ _)) fun _ => only_done ()

theorem rdmaEndpoint_only (nodeName : Str) : (rdmaEndpoint nodeName).Only P := by
  refine .next (only_op (hP _ rfl)) fun node => ?_
  refine .bind (only_op (hP _ rfl)) fun t => ?_
  split
  · exact only_fail _
  · exact only_done _

theorem verifyProvisioningAuthorization_only (partition : NVMePartition) :
    (verifyProvisioningAuthorization partition).Only P := by
  unfold verifyProvisioningAuthorization
  split
  · exact only_fail _
  refine .next (only_op (hP _ rfl)) fun claim => ?_
  split
  · exact only_fail _
  refine .next (only_op (hP _ rfl)) fun device => ?_
  split
  · exact only_fail _
  · exact only_done device

theorem listedDeviceName_only (nodeName : Str) (partition : NVMePartition) :
    (listedDeviceName nodeName partition).Only P := by
  refine .next (only_op (hP _ rfl)) fun devices => ?_
  split
  · exact only_done _
  · exact only_done _
  · exact only_fail _

theorem assignedDeviceName_only (nodeName : Str) (partition : NVMePartition) :
    (assignedDeviceName nodeName partition).Only P := by
  unfold assignedDeviceName
  split
  · exact listedDeviceName_only hP nodeName partition
  split
  · refine .check (only_op (hP _ rfl)) (fun err => ?_) fun claim => ?_
    · split
      · exact listedDeviceName_only hP nodeName partition
      · exact only_fail _
    · split
      · exact only_fail _
      split
      · exact only_done _
      · exact listedDeviceName_only hP nodeName partition
  · exact listedDeviceName_only hP nodeName partition

theorem resolveDeletionDevice_only (nodeName : Str) (partition : NVMePartition) (targetBackendName : Str) :
    (resolveDeletionDevice nodeName partition targetBackendName).Only P := by
  unfold resolveDeletionDevice
  split
  · split
    · exact only_done _
    · exact (assignedDeviceName_only hP nodeName partition).next fun _ => only_done _
  · refine .next (only_op (hP _ rfl)) fun devices => ?_
    split
    · exact only_done _
    · exact only_fail _

include hD in
theorem clearInactiveBackend_only (nodeName : Str) (partition : NVMePartition) (targetBackendName : Str) :
    (clearInactiveBackend nodeName partition targetBackendName).Only P := by
  unfold clearInactiveBackend
  split
  · exact only_done ()
  refine .next (only_op (hP _ rfl)) fun partitions => ?_
  split
  · exact only_done ()
  · exact (assignedDeviceName_only hP nodeName partition).next fun _ => updateDeviceStatus_only hP hD _ _

include hD in
omit [StdLib] in
theorem claimBackend_only (device : NVMeDevice) (targetBackendName : Str) :
    (claimBackend device targetBackendName).Only P := by
  unfold claimBackend
  split
  · exact updateDeviceStatus_only hP hD _ _
  · exact only_done ()

theorem findProvisioningDevice_only (partition : NVMePartition) (targetBackendName : Str) :
    (findProvisioningDevice partition targetBackendName).Only P := by
  refine .next (only_op (hP _ rfl)) fun devices => ?_
  split
  · exact only_done _
  · exact only_fail _

theorem reconcileExportedPartition_only {backend : TargetBackend} (hA : ∀ c, followsAttachment c = true → P c)
    (haccess : ∀ nqn hostNQN, (backend.reconcileHostAccess nqn hostNQN).Only P)
    (hcheck : ∀ f, backend.checkExport = some f → ∀ nqn blockPath portalIP portalPort options,
      (f nqn blockPath portalIP portalPort options).Only P) (nodeName : Str) (partition : NVMePartition) :
    (reconcileExportedPartition nodeName partition backend).Only P := by
  have hhealth : ∀ portalIP, (checkExportHealth partition backend portalIP).Only P := by
    intro portalIP
    unfold checkExportHealth
    split
    · trivial
    rename_i f hf
    refine (hcheck f hf _ _ _ _ _).bind fun checked => ?_
    cases checked <;> trivial
  unfold reconcileExportedPartition
  split
  · exact only_done none
  refine (rdmaEndpoint_only hP nodeName).next fun portalIP => ?_
  refine (hhealth portalIP).bind fun health => ?_
  cases health with
  | unobservable => exact only_done _
  | unhealthy => exact only_done _
  | healthy =>
    exact (reconcileAttachmentAccess_only hA haccess).next fun _ => only_done _

omit [StdLib] in
theorem updatePartitionStatus_only {f : NVMePartitionStatus → NVMePartitionStatus}
    (hf : ∀ base : NVMePartition, P (.api (.patchStatus .partition base { base with status := f base.status })))
    (key : Key) : (updatePartitionStatus key f).Only P :=
  Prog.Only.next (only_op (hP _ rfl)) fun base => Prog.Only.next (only_op (hf base)) fun _ => only_done ()

/-- A patch that leaves the identity alone, and does not claim that the partition is exported. -/
structure Minor (base obj : NVMePartition) : Prop where
  externalID : obj.status.externalID = base.status.externalID
  volumeID : obj.status.volumeID = base.status.volumeID
  nqn : obj.status.nqn = base.status.nqn
  state : obj.status.state = base.status.state ∨ obj.status.state = .failed

section minor

variable (hM : ∀ base obj, Minor base obj → P (.api (.patchStatus .partition base obj)))
include hM

omit [StdLib] in
theorem rejectUnauthorizedProvisioning_only (partition : NVMePartition) (err : Err) :
    (rejectUnauthorizedProvisioning partition err).Only P :=
  (updatePartitionStatus_only hP (fun base => hM base _ ⟨rfl, rfl, rfl, .inl rfl⟩) _).next fun _ => only_done _

omit [StdLib] in
theorem recordProvisioningFailure_only (partition : NVMePartition) (reason : Str) (err : Err) (terminal : Bool) :
    (recordProvisioningFailure partition reason err terminal).Only P := by
  refine (updatePartitionStatus_only hP (fun base => hM base _ ⟨rfl, rfl, rfl, .inr rfl⟩) _).next fun _ => ?_
  split
  · exact only_done _
  · exact only_fail _

theorem whileAuthorized_only (partition : NVMePartition) {k : NVMeDevice → Proc (Except Err Result)}
    (hk : ∀ device, (k device).Only P) : (whileAuthorized partition k).Only P :=
  (verifyProvisioningAuthorization_only hP partition).check (rejectUnauthorizedProvisioning_only hP hM partition) hk

omit [StdLib] in
theorem persistBackendVolumeIdentity_only (key : Key) (partition : NVMePartition) (created : VolumeIdentity) :
    (persistBackendVolumeIdentity key partition created).Only P := by
  unfold persistBackendVolumeIdentity
  split
  · exact only_done _
  · exact (updatePartitionStatus_only hP (fun base => hM base _ ⟨rfl, rfl, rfl, .inl rfl⟩) _).next
      fun _ => only_done _

end minor

omit [StdLib] hP in
theorem ensurePartitionIdentityAndFinalizer_only {partition : NVMePartition} {key : Key} {externalID volumeID : Str}
    (hid : (updatePartitionStatus key fun status => { status with externalID, volumeID }).Only P)
    (hadd : ∀ q : NVMePartition, q.metadata = partition.metadata → (addPartitionFinalizer q).Only P) :
    (ensurePartitionIdentityAndFinalizer key partition externalID volumeID).Only P := by
  unfold ensurePartitionIdentityAndFinalizer
  split
  · exact hid.next fun _ => hadd _ rfl
  · exact hadd _ rfl

omit [StdLib] hP in
theorem addPartitionFinalizer_only {partition q : NVMePartition}
    (hf : partition.containsFinalizer partitionFinalizer = true) (hq : q.metadata = partition.metadata) :
    (addPartitionFinalizer q).Only P := by
  have hqf : q.containsFinalizer partitionFinalizer = true := by
    rw [← hf]
    simp only [Object.containsFinalizer, hq]
  unfold addPartitionFinalizer
  rw [if_pos hqf]
  exact only_done _

section status

-- the volume ID is recorded with the identity, and not touched again
variable (hS : ∀ base obj, obj.status.volumeID = base.status.volumeID → P (.api (.patchStatus .partition base obj)))
include hS

omit [StdLib] hP in
theorem minor_only (base obj : NVMePartition) (h : Minor base obj) : P (.api (.patchStatus .partition base obj)) :=
  hS base obj h.volumeID

section exporting

variable {resolved : ResolvedPartitionPlugins} (hexport : ∀ volumeName blockPath portalIP portalPort options,
  (resolved.targetBackend.exportVolume volumeName blockPath portalIP portalPort options).Only P)
include hexport

theorem exportPartition_only (nodeName : Str) (key : Key) (partition : NVMePartition) (externalID backendVolumeID : Str) :
    (exportPartition nodeName key partition resolved externalID backendVolumeID).Only P := by
  refine (rdmaEndpoint_only hP nodeName).check (fun _ => recordProvisioningFailure_only hP (minor_only hS) _ _ _ _) fun portalIP =>
    whileAuthorized_only hP (minor_only hS) _ fun _ => ?_
  exact (hexport _ _ _ _ _).check (fun _ => recordProvisioningFailure_only hP (minor_only hS) _ _ _ _) fun nqn =>
    (updatePartitionStatus_only hP (fun base => hS base _ rfl) _).next fun _ => only_done _

theorem afterCarving_only (nodeName : Str) (key : Key) (partition : NVMePartition) (externalID : Str) (created : VolumeIdentity) :
    ((persistBackendVolumeIdentity key partition created).check fail fun partition =>
      exportPartition nodeName key partition resolved externalID created.backendVolumeID).Only P := by
  exact (persistBackendVolumeIdentity_only hP (minor_only hS) key partition created).next fun _ =>
    exportPartition_only hP hS hexport nodeName key _ _ _

theorem carveVolume_only
    (hsetup : ∀ devicePath deviceName, (resolved.volumeManager.setupStorage devicePath deviceName).Only P)
    (hcreate : ∀ devicePath deviceName volumeName sizeBytes,
      (resolved.volumeManager.createVolume devicePath deviceName volumeName sizeBytes).Only P)
    (nodeName : Str) (key : Key) (partition : NVMePartition) (externalID devicePath deviceName : Str)
    (requestedAllocation : ℤ) :
    (carveVolume nodeName key partition resolved externalID devicePath deviceName requestedAllocation).Only P := by
  have hfailed : ∀ (p : NVMePartition) (reason : Str) (err : Err) (terminal : Bool),
      (recordProvisioningFailure p reason err terminal).Only P := recordProvisioningFailure_only hP (minor_only hS)
  refine (hsetup _ _).check (fun _ => hfailed _ _ _ _) fun _ => whileAuthorized_only hP (minor_only hS) _ fun _ => ?_
  refine (hcreate _ _ _ _).check (fun _ => hfailed _ _ _ _) fun created => ?_
  split
  · exact hfailed _ _ _ _
  split
  · exact hfailed _ _ _ _
  · exact afterCarving_only hP hS hexport nodeName key partition externalID created

end exporting

/-- Every method of the plugins but the health check only makes such calls. -/
structure MethodsOnly (P : Call → Prop) (resolved : ResolvedPartitionPlugins) : Prop where
  setupDevice : ∀ pciAddress deviceName options,
    (resolved.targetBackend.setupDevice pciAddress deviceName options).Only P
  exportVolume : ∀ volumeName blockPath portalIP portalPort options,
    (resolved.targetBackend.exportVolume volumeName blockPath portalIP portalPort options).Only P
  unexportVolume : ∀ nqn, (resolved.targetBackend.unexportVolume nqn).Only P
  reconcileHostAccess : ∀ nqn hostNQN, (resolved.targetBackend.reconcileHostAccess nqn hostNQN).Only P
  setupStorage : ∀ devicePath deviceName, (resolved.volumeManager.setupStorage devicePath deviceName).Only P
  createVolume : ∀ devicePath deviceName volumeName sizeBytes,
    (resolved.volumeManager.createVolume devicePath deviceName volumeName sizeBytes).Only P
  deleteVolume : ∀ devicePath deviceName volumeName identity,
    (resolved.volumeManager.deleteVolume devicePath deviceName volumeName identity).Only P

/-- So does the health check. -/
structure PluginsOnly (P : Call → Prop) (resolved : ResolvedPartitionPlugins) : Prop extends MethodsOnly P resolved where
  checkExport : ∀ f, resolved.targetBackend.checkExport = some f → ∀ nqn blockPath portalIP portalPort options,
    (f nqn blockPath portalIP portalPort options).Only P

variable {resolved : ResolvedPartitionPlugins}
include hD

theorem provisionPartition_only (hplugins : MethodsOnly P resolved) (nodeName : Str) (key : Key)
    (partition : NVMePartition) (externalID : Str) (requestedAllocation : ℤ) :
    (provisionPartition nodeName key partition resolved externalID requestedAllocation).Only P := by
  have hfailed : ∀ (p : NVMePartition) (reason : Str) (err : Err) (terminal : Bool),
      (recordProvisioningFailure p reason err terminal).Only P := recordProvisioningFailure_only hP (minor_only hS)
  refine whileAuthorized_only hP (minor_only hS) _ fun device => ?_
  refine (rdmaEndpoint_only hP nodeName).check (fun _ => hfailed _ _ _ _) fun _ => ?_
  split
  · exact hfailed _ _ _ _
  refine (hplugins.setupDevice _ _ _).check (fun _ => hfailed _ _ _ _) fun _ => ?_
  refine (findProvisioningDevice_only hP partition _).check (fun _ => hfailed _ _ _ _) fun path =>
    whileAuthorized_only hP (minor_only hS) _ fun _ => ?_
  refine (claimBackend_only hP hD device _).check (fun _ => hfailed _ _ _ _) fun _ => ?_
  exact carveVolume_only hP hS hplugins.exportVolume hplugins.setupStorage hplugins.createVolume nodeName key partition
    externalID _ _ requestedAllocation

theorem reconcileLive_only (hplugins : PluginsOnly P resolved) (hA : ∀ c, followsAttachment c = true → P c)
    {partition : NVMePartition}
    {req : Key} {externalID volumeID : Str}
    (hid : (updatePartitionStatus req fun status => { status with externalID, volumeID }).Only P)
    (hadd : ∀ q : NVMePartition, q.metadata = partition.metadata → (addPartitionFinalizer q).Only P) (nodeName : Str) :
    (reconcileLive nodeName req partition resolved externalID volumeID).Only P := by
  unfold reconcileLive
  split
  · exact recordProvisioningFailure_only hP (minor_only hS) _ _ _ _
  split
  · exact recordProvisioningFailure_only hP (minor_only hS) _ _ _ _
  refine whileAuthorized_only hP (minor_only hS) partition fun _ => ?_
  refine (updatePartitionStatus_only hP (fun base => hS base _ rfl) _).next fun _ => ?_
  refine (ensurePartitionIdentityAndFinalizer_only hid hadd).next fun partition' => ?_
  refine (reconcileExportedPartition_only hP hA hplugins.reconcileHostAccess hplugins.checkExport nodeName partition').next
    fun handled => ?_
  cases handled with
  | some result => exact only_done result
  | none => exact provisionPartition_only hP hD hS hplugins.toMethodsOnly nodeName req partition' externalID _

end status

section deletion

variable {resolved : ResolvedPartitionPlugins} (hdelete : ∀ devicePath deviceName volumeName identity,
  (resolved.volumeManager.deleteVolume devicePath deviceName volumeName identity).Only P)
include hdelete hD

theorem deleteBackendVolume_only (nodeName : Str) (partition : NVMePartition) (externalID : Str) :
    (deleteBackendVolume nodeName partition resolved externalID).Only P := by
  unfold deleteBackendVolume
  split
  · exact (resolveDeletionDevice_only hP nodeName partition _).next fun device =>
      (hdelete _ _ _ _).next fun _ => clearInactiveBackend_only hP hD nodeName partition _
  · exact only_done ()

theorem reconcilePartitionDeletion_only (hA : ∀ c, followsAttachment c = true → P c)
    (hrelease : ∀ a, P (.api (.delete .attachment a))) (hpatch : ∀ base obj, P (.api (.patch .partition base obj)))
    (nodeName : Str) (key : Key) (partition : NVMePartition) (externalID : Str)
    (hunexport : (resolved.targetBackend.unexportVolume (if partition.status.nqn = [] then
      Distort.VolumeIdentity.nqn externalID else partition.status.nqn)).Only P) :
    (reconcilePartitionDeletion nodeName key partition resolved externalID).Only P := by
  unfold reconcilePartitionDeletion
  split
  · exact only_done 0
  refine hunexport.next fun _ => ?_
  refine (releaseAttachmentAfterUnexport_only hA hrelease partition).next fun _ => ?_
  refine (deleteBackendVolume_only hP hD hdelete nodeName partition externalID).next fun _ => ?_
  refine .check (only_op (hP _ rfl)) (fun err => ?_) fun latest =>
    Prog.Only.next (only_op (hpatch _ _)) fun _ => only_done 0
  split
  · exact only_done 0
  · exact only_fail err

end deletion

end only

omit [StdLib] in
theorem atomic_of_resolve (h : resolvePartitionPlugins .atomic partition = .ok resolved) :
    ∃ name vmName, resolved.targetBackend = .atomic name ∧ resolved.volumeManager = .atomic vmName := by
  obtain ⟨hb, hv⟩ := mem_of_resolve h
  simp only [Plugins.atomic, List.mem_cons, List.not_mem_nil, or_false] at hb hv
  rcases hb with hb | hb <;> rcases hv with hv | hv <;> exact ⟨_, _, hb, hv⟩

omit [StdLib] in
theorem pluginsOnly_of_resolve {P : Call → Prop} (hP : ∀ c, P (.plugin c))
    (h : resolvePartitionPlugins .atomic partition = .ok resolved) : PluginsOnly P resolved := by
  obtain ⟨name, vmName, hname, hvmName⟩ := atomic_of_resolve h
  refine ⟨?_, ?_⟩
  · constructor <;>
      intros <;>
      first | rw [hname] | rw [hvmName]
    all_goals exact only_op (hP _)
  · rw [hname]
    rintro f ⟨⟩ nqn blockPath portalIP portalPort options
    exact only_op (hP _)

end Distort.Agent
