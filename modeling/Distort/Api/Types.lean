import Distort.Lib.Kube

/-!
The custom resources of `api/v1alpha1`.

A quantity is its value in bytes.  Fields that no modelled function reads or writes are left out
(the model name and NUMA node of a device, the link speed and counters of a storage node).
-/

namespace Distort.Api

open Distort.Go Distort.Lib.Kube

/-! ### NVMeDeviceClaim -/

/-- `NVMeDeviceClaimReference`. -/
structure ClaimRef where
  ns : Str
  name : Str
  uid : Str
  deriving DecidableEq

def ClaimRef.key (r : ClaimRef) : Key := ⟨r.ns, r.name⟩

structure NVMeDeviceClaimSpec where
  serialNumber : Str
  deriving DecidableEq

structure NVMeDeviceClaimStatus where
  active : Bool := false
  matchedDevice : Str := []
  nodeName : Str := []
  conditions : List Condition := []
  deriving DecidableEq

abbrev NVMeDeviceClaim := Object NVMeDeviceClaimSpec NVMeDeviceClaimStatus

def NVMeDeviceClaimStatus.merge (base new stored : NVMeDeviceClaimStatus) : NVMeDeviceClaimStatus where
  active := mergeField base.active new.active stored.active
  matchedDevice := mergeField base.matchedDevice new.matchedDevice stored.matchedDevice
  nodeName := mergeField base.nodeName new.nodeName stored.nodeName
  conditions := mergeField base.conditions new.conditions stored.conditions

@[simp] theorem NVMeDeviceClaimStatus.merge_base (base new : NVMeDeviceClaimStatus) : merge base new base = new := by
  simp [merge]

/-! ### NVMeDevice -/

/-- `NVMeDeviceState`; `none` is the empty string of an object whose status was never written. -/
inductive NVMeDeviceState where
  | none | available | claimed | unavailable
  deriving DecidableEq, Repr

structure NVMeDeviceSpec where
  nodeName : Str
  pciAddress : Str
  serialNumber : Str
  totalCapacity : ℤ
  deriving DecidableEq

/-- A merge patch of the spec. -/
def NVMeDeviceSpec.merge (base new stored : NVMeDeviceSpec) : NVMeDeviceSpec where
  nodeName := mergeField base.nodeName new.nodeName stored.nodeName
  pciAddress := mergeField base.pciAddress new.pciAddress stored.pciAddress
  serialNumber := mergeField base.serialNumber new.serialNumber stored.serialNumber
  totalCapacity := mergeField base.totalCapacity new.totalCapacity stored.totalCapacity

structure NVMeDeviceStatus where
  state : NVMeDeviceState := .none
  claimRef : Option ClaimRef := .none
  freeCapacity : ℤ := 0
  activeBackend : Str := []
  conditions : List Condition := []
  deriving DecidableEq

abbrev NVMeDevice := Object NVMeDeviceSpec NVMeDeviceStatus

/-- A merge patch of the status; the reference is set or removed as a whole. -/
def NVMeDeviceStatus.merge (base new stored : NVMeDeviceStatus) : NVMeDeviceStatus where
  state := mergeField base.state new.state stored.state
  claimRef := mergeField base.claimRef new.claimRef stored.claimRef
  freeCapacity := mergeField base.freeCapacity new.freeCapacity stored.freeCapacity
  activeBackend := mergeField base.activeBackend new.activeBackend stored.activeBackend
  conditions := mergeField base.conditions new.conditions stored.conditions

@[simp] theorem NVMeDeviceStatus.merge_base (base new : NVMeDeviceStatus) : merge base new base = new := by
  simp [merge]

/-! ### NVMePartition -/

/-- `NVMePartitionState`; `none` is the empty string of an object whose status was never written. -/
inductive NVMePartitionState where
  | none | pending | creating | exported | failed
  deriving DecidableEq, Repr

structure NVMePartitionSpec where
  size : ℤ
  nodeName : Str := []
  parentDeviceSerialNumber : Str := []
  claimRef : Option ClaimRef := .none
  accessMode : Str := []
  filesystem : Str := []
  requestFingerprint : Str := []
  targetBackend : Str := []
  volumeManager : Str := []
  targetOptions : List (Str × Str) := []
  deriving DecidableEq

structure NVMePartitionStatus where
  placementFingerprint : Str := []
  state : NVMePartitionState := .none
  externalID : Str := []
  volumeID : Str := []
  backendVolumeID : Str := []
  allocatedCapacity : ℤ := 0
  spdkBaseBdev : Str := []
  spdkLvstoreName : Str := []
  spdkLvstoreUUID : Str := []
  spdkLvolName : Str := []
  spdkLvolUUID : Str := []
  nqn : Str := []
  portalIP : Str := []
  portalPort : ℤ := 0
  conditions : List Condition := []
  deriving DecidableEq

abbrev NVMePartition := Object NVMePartitionSpec NVMePartitionStatus

/-- A merge patch of the status, field by field; the list of conditions is one field. -/
def NVMePartitionStatus.merge (base new stored : NVMePartitionStatus) : NVMePartitionStatus where
  placementFingerprint := mergeField base.placementFingerprint new.placementFingerprint stored.placementFingerprint
  state := mergeField base.state new.state stored.state
  externalID := mergeField base.externalID new.externalID stored.externalID
  volumeID := mergeField base.volumeID new.volumeID stored.volumeID
  backendVolumeID := mergeField base.backendVolumeID new.backendVolumeID stored.backendVolumeID
  allocatedCapacity := mergeField base.allocatedCapacity new.allocatedCapacity stored.allocatedCapacity
  spdkBaseBdev := mergeField base.spdkBaseBdev new.spdkBaseBdev stored.spdkBaseBdev
  spdkLvstoreName := mergeField base.spdkLvstoreName new.spdkLvstoreName stored.spdkLvstoreName
  spdkLvstoreUUID := mergeField base.spdkLvstoreUUID new.spdkLvstoreUUID stored.spdkLvstoreUUID
  spdkLvolName := mergeField base.spdkLvolName new.spdkLvolName stored.spdkLvolName
  spdkLvolUUID := mergeField base.spdkLvolUUID new.spdkLvolUUID stored.spdkLvolUUID
  nqn := mergeField base.nqn new.nqn stored.nqn
  portalIP := mergeField base.portalIP new.portalIP stored.portalIP
  portalPort := mergeField base.portalPort new.portalPort stored.portalPort
  conditions := mergeField base.conditions new.conditions stored.conditions

@[simp] theorem NVMePartitionStatus.merge_base (base new : NVMePartitionStatus) : merge base new base = new := by
  simp [merge]

/-! ### NVMeVolumeAttachment -/

/-- `NVMeVolumeReference`. -/
structure VolumeRef where
  name : Str
  uid : Str
  deriving DecidableEq

structure NVMeVolumeAttachmentSpec where
  volumeRef : VolumeRef
  nodeID : Str
  hostNQN : Str
  attachmentID : Str
  deriving DecidableEq

structure NVMeVolumeAttachmentStatus where
  observedAttachmentID : Str := []
  conditions : List Condition := []
  deriving DecidableEq

abbrev NVMeVolumeAttachment := Object NVMeVolumeAttachmentSpec NVMeVolumeAttachmentStatus

def NVMeVolumeAttachmentStatus.merge (base new stored : NVMeVolumeAttachmentStatus) : NVMeVolumeAttachmentStatus where
  observedAttachmentID := mergeField base.observedAttachmentID new.observedAttachmentID stored.observedAttachmentID
  conditions := mergeField base.conditions new.conditions stored.conditions

/-! ### RDMAStorageNode -/

inductive RDMATransportType where
  | roCEv2 | infiniBand | other
  deriving DecidableEq, Repr

structure RDMAStorageNodeSpec where
  nodeName : Str
  rdmaIP : Str
  transport : RDMATransportType
  deriving DecidableEq

/-- Times are in nanoseconds; `none` is the zero time. -/
structure RDMAStorageNodeStatus where
  lastHeartbeatTime : Option ℤ := none
  conditions : List Condition := []
  deriving DecidableEq

abbrev RDMAStorageNode := Object RDMAStorageNodeSpec RDMAStorageNodeStatus

end Distort.Api
