import Distort.Capacity
import Distort.Csi.Attach
import Distort.Options

/-!
Creating a volume: `CreateVolume` of `controller_server.go` and `create_volume_request.go`.

Polling is bounded by a timer, which fires after at most `polls` ticks.
-/

namespace Distort.Csi

open Go Lib Lib.Kube Api Proc

/-! ### Requests -/

structure CapacityRange where
  requiredBytes : ℤ
  limitBytes : ℤ

structure CreateVolumeRequest where
  name : Str
  capacityRange : Option CapacityRange
  volumeCapabilities : List (Option VolumeCapability)
  parameters : Params

structure CreateVolumeResponse where
  volumeID : Str
  capacityBytes : ℤ
  volumeContext : Params
  deriving DecidableEq

def defaultVolumeCapacityBytes : ℤ := 1024 * 1024 * 1024
def spdkTargetBackend : Str := "spdk"
def kernelTargetBackend : Str := "kernel"
def partitionVolumeManager : Str := "partition"

/-! ### Capacity -/

/-- The bytes of a request that names a limit only. -/
def requiredWithin (limitBytes : ℤ) : Traced ℤ :=
  if limitBytes < defaultVolumeCapacityBytes then do
    let quotient ← .op (limitBytes.tdiv Capacity.allocationUnitBytes)
    let requiredBytes ← .op (quotient * Capacity.allocationUnitBytes)
    if requiredBytes = 0 then
      .fail (.errorf "limit_bytes %d is smaller than the minimum allocation unit %d"
        [.int limitBytes, .int Capacity.allocationUnitBytes])
    else pure requiredBytes
  else pure defaultVolumeCapacityBytes

/-- The rest of `normalizeCapacityRange`, once the required bytes are known. -/
def fitRounded (limitBytes requiredBytes : ℤ) : Traced (ℤ × ℤ) :=
  if limitBytes > 0 ∧ requiredBytes > limitBytes then
    .fail (.errorf "required_bytes %d exceeds limit_bytes %d" [.int requiredBytes, .int limitBytes])
  else do
    let allocatedBytes ← Capacity.roundUpTraced requiredBytes
    if limitBytes > 0 ∧ allocatedBytes > limitBytes then
      .fail (.errorf "required capacity rounds up to %d bytes, exceeding limit_bytes %d"
        [.int allocatedBytes, .int limitBytes])
    else pure (requiredBytes, allocatedBytes)

/-- `normalizeCapacityRange` of a range, operation by operation. -/
def normalizeCapacityRangeTraced (capacityRange : CapacityRange) : Traced (ℤ × ℤ) :=
  let limitBytes := capacityRange.limitBytes
  if capacityRange.requiredBytes < 0 then .fail (.errorf "required_bytes cannot be negative" [])
  else if limitBytes < 0 then .fail (.errorf "limit_bytes cannot be negative" [])
  else if capacityRange.requiredBytes = 0 ∧ limitBytes = 0 then
    .fail (.errorf "at least one of required_bytes or limit_bytes must be positive" [])
  else if capacityRange.requiredBytes = 0 then requiredWithin limitBytes >>= fitRounded limitBytes
  else fitRounded limitBytes capacityRange.requiredBytes

/-- The required bytes, and the bytes that will be allocated for them. -/
def normalizeCapacityRange : Option CapacityRange → Except Err (ℤ × ℤ)
  | none => .ok (defaultVolumeCapacityBytes, defaultVolumeCapacityBytes)
  | some capacityRange => (normalizeCapacityRangeTraced capacityRange).result

/-! ### Parameters -/

def validateStorageCombination (targetBackend volumeManager : Str) : Except Err Unit :=
  if targetBackend ≠ spdkTargetBackend ∧ targetBackend ≠ kernelTargetBackend then
    .error (.errorf "target backend %q is not implemented" [.str targetBackend])
  else if volumeManager ≠ partitionVolumeManager then
    .error (.errorf "volume manager %q is not implemented" [.str volumeManager])
  else .ok ()

/-- The value of a parameter, or a default if it is missing or empty. -/
def parameterOr (parameters : Params) (key fallback : Str) : Str :=
  match parameters.lookup key with
  | some (b :: bs) => b :: bs
  | _ => fallback

/-- The parameters that are for the backend. -/
def backendOptions (parameters : Params) : Params :=
  parameters.filter fun kv =>
    !hasPrefix kv.1 "csi.storage.k8s.io/" && kv.1 ≠ str "target-backend" && kv.1 ≠ str "volume-manager" &&
      kv.1 ≠ filesystemParameter

/-- The target backend, the volume manager and the options of the backend. -/
def storageConfiguration (parameters : Params) : Except Err (Str × Str × Params) := do
  let targetBackend := parameterOr parameters "target-backend" spdkTargetBackend
  let volumeManager := parameterOr parameters "volume-manager" partitionVolumeManager
  validateStorageCombination targetBackend volumeManager
  Options.validate targetBackend (backendOptions parameters)
  return (targetBackend, volumeManager, backendOptions parameters)

/-! ### Fingerprints -/

/-- `canonicalCreateVolumeRequest`. -/
structure CanonicalCreateVolumeRequest where
  requiredBytes : ℤ
  limitBytes : ℤ
  targetBackend : Str
  volumeManager : Str
  targetOptions : Params
  capability : CanonicalVolumeCapability
  deriving DecidableEq

/-- `json.Marshal`, which has no error for such a value. -/
def CanonicalCreateVolumeRequest.marshal (request : CanonicalCreateVolumeRequest) : Str :=
  jsonObject [(str "requiredBytes", itoa request.requiredBytes), (str "limitBytes", itoa request.limitBytes),
    (str "targetBackend", jsonString request.targetBackend), (str "volumeManager", jsonString request.volumeManager),
    (str "targetOptions", jsonMap request.targetOptions),
    (str "capability", jsonObject [(str "accessMode", jsonString request.capability.accessMode),
      (str "filesystem", jsonString request.capability.filesystem)])]

def fingerprintCreateVolumeRequest (request : CanonicalCreateVolumeRequest) : Str := hexEncode (sha256 request.marshal)

variable [StdLib]

/-- What a request comes down to: the object that it is about, what is to be allocated, and its canonical form. -/
structure Normalized where
  key : Key
  expectedAllocation : ℤ
  canonical : CanonicalCreateVolumeRequest

/-- The first part of `CreateVolume`, which asks nobody. -/
def normalize (req : CreateVolumeRequest) : Except Status Normalized := do
  if req.name = [] then
    throw ⟨.invalidArgument, "Name cannot be empty"⟩
  let capability ← (validateVolumeCapabilities req.parameters req.volumeCapabilities).mapError fun err =>
    .errorf .invalidArgument "Invalid volume capabilities: %v" [.str err.text]
  let (requiredBytes, expectedAllocation) ← (normalizeCapacityRange req.capacityRange).mapError fun err =>
    .errorf .invalidArgument "Invalid capacity range: %v" [.str err.text]
  let (targetBackend, volumeManager, targetOptions) ← (storageConfiguration req.parameters).mapError fun err =>
    .errorf .invalidArgument "Invalid storage configuration: %v" [.str err.text]
  return {
    key := ⟨parameterOr req.parameters "csi.storage.k8s.io/pvc/namespace" "default", req.name⟩
    expectedAllocation
    canonical := {
      requiredBytes
      limitBytes := req.capacityRange.elim defaultVolumeCapacityBytes (·.limitBytes)
      targetBackend, volumeManager, targetOptions, capability } }

/-- The partition that is asked for; the node is left to the manager. -/
def Normalized.partition (n : Normalized) : NVMePartition where
  metadata := { ns := n.key.ns, name := n.key.name }
  spec := {
    size := n.canonical.requiredBytes
    accessMode := n.canonical.capability.accessMode
    filesystem := n.canonical.capability.filesystem
    requestFingerprint := fingerprintCreateVolumeRequest n.canonical
    targetBackend := n.canonical.targetBackend
    volumeManager := n.canonical.volumeManager
    targetOptions := n.canonical.targetOptions }
  status := {}

/-! ### Answers -/

omit [StdLib] in
/-- `volumeContextForPartition`. -/
def volumeContextForPartition (partition : NVMePartition) : Params :=
  [(str "nqn", partition.status.nqn), (str "portalIP", partition.status.portalIP),
    (str "portalPort", itoa partition.status.portalPort),
    (filesystemParameter, if partition.spec.filesystem = [] then defaultFilesystem else partition.spec.filesystem)]

/-- The volume ID that the agent has recorded, or the one that it would record. -/
def volumeIDForPartition (partition : NVMePartition) : Except Err Str :=
  if partition.status.volumeID = [] then
    (VolumeIdentity.new partition.metadata.ns partition.metadata.name partition.metadata.uid).map (·.volumeHandle)
  else .ok partition.status.volumeID

/-- The capacity that the agent has recorded; older agents did not. -/
def allocatedForPartition (n : Normalized) (partition : NVMePartition) : ℤ :=
  if partition.status.allocatedCapacity = 0 then n.expectedAllocation else partition.status.allocatedCapacity

/-- The last part of `CreateVolume`: the answer, from the partition that was read at last. -/
def createdVolume (req : CreateVolumeRequest) (n : Normalized) (partition : NVMePartition) :
    Except Status CreateVolumeResponse :=
  match volumeIDForPartition partition with
  | .error err => .error (.errorf .internal "failed to derive partition identity: %v" [.str err.text])
  | .ok volumeID =>
    let allocatedBytes := allocatedForPartition n partition
    let limitBytes := req.capacityRange.elim 0 (·.limitBytes)
    if allocatedBytes < n.canonical.requiredBytes then
      .error (.errorf .internal "backend allocated %d bytes, below required_bytes %d"
        [.int allocatedBytes, .int n.canonical.requiredBytes])
    else if limitBytes > 0 ∧ allocatedBytes > limitBytes then
      .error (.errorf .internal "backend allocated %d bytes, exceeding limit_bytes %d"
        [.int allocatedBytes, .int limitBytes])
    else .ok { volumeID, capacityBytes := allocatedBytes, volumeContext := volumeContextForPartition partition }

/-! ### `CreateVolume` -/

/-- One round of `waitForPartitionReady`; `again` is the next one.  A failed read only costs a round. -/
def waitForPartitionReadyOnce (key : Key) (again : Proc (Except Err Unit)) : Proc (Except Err Unit) :=
  select >>= fun tick =>
  match tick with
  | .timer => fail (.errorf "timeout waiting for NVMePartition %s" [.str key.name])
  | .done err => fail err
  | .ticker =>
    get .partition .api key >>= fun current =>
    match current with
    | .error _ => again
    | .ok p =>
      if p.status.state = .exported then done ()
      else if p.status.state = .failed then fail (.errorf "partition creation failed" [])
      else again

def waitForPartitionReady (key : Key) : ℕ → Proc (Except Err Unit)
  | 0 => waitForPartitionReadyOnce key (fail (.errorf "timeout waiting for NVMePartition %s" [.str key.name]))
  | n + 1 => waitForPartitionReadyOnce key (waitForPartitionReady key n)

/-- The partition is created, or found with the same properties. -/
def createOrReuse (n : Normalized) : Proc (Except Status Unit) :=
  (create .partition n.partition).check
    (fun err =>
      if !err.isAlreadyExists then fail (.errorf .internal "failed to create partition: %v" [.str err.text])
      else
        (get .partition .api n.key).check
          (fun err => fail (.errorf .internal "failed to get existing partition: %v" [.str err.text])) fun existing =>
        if existing.spec.requestFingerprint ≠ fingerprintCreateVolumeRequest n.canonical then
          fail (.errorf .alreadyExists ("partition %s/%s already exists with different immutable CreateVolume " ++
            "properties; delete the existing partition or PVC first") [.str n.key.ns, .str n.key.name])
        else done ())
    fun _ => done ()

def createVolume (polls : ℕ) (req : CreateVolumeRequest) : Proc (Except Status CreateVolumeResponse) :=
  match normalize req with
  | .error s => fail s
  | .ok n =>
    (createOrReuse n).check fail fun _ =>
    (waitForPartitionReady n.key polls).check
      (fun err => fail (.errorf .deadlineExceeded "partition failed to become ready: %v" [.str err.text])) fun _ =>
    (get .partition .api n.key).check
      (fun err => fail (.errorf .internal "failed to get final partition status: %v" [.str err.text])) fun partition =>
    .ret (createdVolume req n partition)

/-! ### What is asked for, and what is answered -/

omit [StdLib] in
theorem waitForPartitionReady_only {P : Call → Prop} (hP : ∀ c, looks c = true → P c) (key : Key) (polls : ℕ) :
    (waitForPartitionReady key polls).Only P := by
  have honce : ∀ again : Proc (Except Err Unit), again.Only P → (waitForPartitionReadyOnce key again).Only P := by
    intro again hagain
    refine .bind (only_op (hP _ rfl)) fun tick => ?_
    cases tick with
    | timer => exact only_fail _
    | done err => exact only_fail err
    | ticker =>
      refine .bind (only_op (hP _ rfl)) fun current => ?_
      rcases current with err | p
      · exact hagain
      simp only
      split
      · exact only_done ()
      split
      · exact only_fail _
      · exact hagain
  induction polls with
  | zero => exact honce _ (only_fail _)
  | succ n ih => exact honce _ ih

omit [StdLib] in
theorem createdVolume_eq_ok {req : CreateVolumeRequest} {n : Normalized} {p : NVMePartition}
    {resp : CreateVolumeResponse} (h : createdVolume req n p = .ok resp) :
    volumeIDForPartition p = .ok resp.volumeID ∧ resp.volumeContext = volumeContextForPartition p := by
  unfold createdVolume at h
  split at h
  · cases h
  rename_i volumeID hid
  simp only at h
  split at h
  · cases h
  split at h
  · cases h
  · cases h
    exact ⟨hid, rfl⟩

end Distort.Csi
