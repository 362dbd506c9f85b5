import Mathlib.Data.List.Sort
import Distort.Api.Calls
import Distort.Capacity
import Distort.Health
import Distort.Identity
import Distort.Lib.Pool

/-!
Placing partitions on devices: `nvmepartition_controller.go`.

`via` is the reader of the reconciler, the server or the cache; `reserveCandidate` retries five times at
most on a conflict.
-/

namespace Distort.Manager

open Go Lib Lib.Kube Api Proc

variable [StdLib]

/-- `placementCandidate`. -/
structure PlacementCandidate where
  key : Key
  serial : Str
  freeBytes : ℤ
  deriving DecidableEq

def requestedBackend (partition : NVMePartition) : Str :=
  if partition.spec.targetBackend = [] then "spdk" else partition.spec.targetBackend

def deviceCanHostPartition (device : NVMeDevice) (partition : NVMePartition) : Bool :=
  if device.status.state ≠ .claimed ∨ device.status.claimRef = none then false
  else device.status.activeBackend = [] || device.status.activeBackend = requestedBackend partition

def nvmeInventoryReadyCondition : Str := "NVMeInventoryReady"

def inventoryIsReady (node : RDMAStorageNode) : Bool :=
  isStatusConditionTrue node.status.conditions nvmeInventoryReadyCondition

/-- The claim is the one that the device names, is live, and names the device. -/
def ownsDevice (claim : NVMeDeviceClaim) (ref : ClaimRef) (device : NVMeDevice) : Bool :=
  claim.metadata.uid = ref.uid && !claim.metadata.deletionTimestamp && claim.status.active &&
    claim.status.matchedDevice = device.metadata.name && claim.status.nodeName = device.spec.nodeName &&
    equalFold claim.spec.serialNumber device.spec.serialNumber

def liveClaimOwnsDevice (via : Reader) (device : NVMeDevice) : Proc (Except Err Bool) :=
  match device.status.claimRef with
  | none => done false
  | some ref =>
    if ref.ns = [] ∨ ref.name = [] ∨ ref.uid = [] then done false
    else
      (get .claim via ref.key).check (fun err => if err.isNotFound then done false else fail err) fun claim =>
      done (ownsDevice claim ref device)

/-! ### Capacity -/

/-- The loop of `allocatedCapacityForDevice`, from the bytes counted so far. -/
def addAllocated (serialNumber : Str) : List NVMePartition → ℤ → Except Err ℤ
  | [], used => .ok used
  | p :: ps, used =>
    if p.spec.parentDeviceSerialNumber ≠ serialNumber then addAllocated serialNumber ps used
    else
      match Capacity.roundUp p.spec.size with
      | .error err =>
        .error (.wrapf "NVMePartition %s/%s has invalid capacity %q: %w"
          [.str p.metadata.ns, .str p.metadata.name, .int p.spec.size] err)
      | .ok allocated =>
        if used > i64 (maxInt64 - allocated) then
          .error (.errorf "allocated capacity overflow for device serial %s" [.str serialNumber])
        else addAllocated serialNumber ps (i64 (used + allocated))

def allocatedCapacityForDevice (partitions : List NVMePartition) (serialNumber : Str) : Except Err ℤ :=
  addAllocated serialNumber partitions 0

def availableCapacity (device : NVMeDevice) (partitions : List NVMePartition) : Except Err ℤ :=
  (allocatedCapacityForDevice partitions device.spec.serialNumber).map fun used =>
    max (i64 (device.spec.totalCapacity - used)) 0

/-! ### Candidates -/

/-- The names of the nodes that are healthy and have reported their devices. -/
def readyNodes : List RDMAStorageNode → Proc (List Str)
  | [] => .ret []
  | n :: ns =>
    now >>= fun t =>
    readyNodes ns >>= fun rest =>
    .ret (if (Health.validate n t).toBool && inventoryIsReady n then n.spec.nodeName :: rest else rest)

/-- The loop over the devices. -/
def collectCandidates (via : Reader) (ready : List Str) (partition : NVMePartition) (partitions : List NVMePartition)
    (requestedBytes : ℤ) : List NVMeDevice → Proc (Except Err (List PlacementCandidate))
  | [] => done []
  | device :: devices =>
    let rest := collectCandidates via ready partition partitions requestedBytes devices
    if device.spec.nodeName ∉ ready then rest
    else if !deviceCanHostPartition device partition then rest
    else
      (liveClaimOwnsDevice via device).check fail fun owned =>
      if !owned then rest
      else
        match availableCapacity device partitions with
        | .error err => fail err
        | .ok freeBytes =>
          if freeBytes ≥ requestedBytes then
            rest.check fail fun candidates => done (⟨device.key, device.spec.serialNumber, freeBytes⟩ :: candidates)
          else rest

/-- Bytes in the order of Go strings. -/
def lexLe : Str → Str → Bool
  | [], _ => true
  | _ :: _, [] => false
  | a :: as, b :: bs => a < b || (a = b && lexLe as bs)

/-- The order of the candidates: most free bytes first, then by name. -/
def PlacementCandidate.le (a b : PlacementCandidate) : Bool :=
  if a.freeBytes = b.freeBytes then lexLe a.key.string b.key.string else a.freeBytes > b.freeBytes

def placementCandidates (via : Reader) (partition : NVMePartition) (requestedBytes : ℤ) :
    Proc (Except Err (List PlacementCandidate)) :=
  (list .device via).check fail fun devices =>
  (list .partition via).check fail fun partitions =>
  (list .node via).check fail fun rdmaNodes =>
  readyNodes rdmaNodes >>= fun ready =>
  (collectCandidates via ready partition partitions requestedBytes devices).check fail fun candidates =>
  done (candidates.insertionSort fun a b => a.le b)

/-! ### Reservation -/

/-- The partition with the selection of a device. -/
def withPlacement (partition : NVMePartition) (device : NVMeDevice) (ref : ClaimRef) : NVMePartition :=
  { partition with
    spec := { partition.spec with
      nodeName := device.spec.nodeName
      parentDeviceSerialNumber := device.spec.serialNumber
      claimRef := some ref } }

/-- The partition with the authorization of its placement in the next generation. -/
def withAuthorization (partition : NVMePartition) : NVMePartition :=
  { partition with
    status := { partition.status with
      placementFingerprint := PlacementAuth.fingerprint partition.metadata.uid partition.spec.nodeName
        partition.spec.parentDeviceSerialNumber partition.spec.claimRef
      conditions := setStatusCondition partition.status.conditions {
        type := PlacementAuth.conditionType
        status := .true
        observedGeneration := partition.metadata.generation + 1
        reason := "ManagerSelectedPlacement"
        message := "The management controller authorized this exact node, device, and claim placement" } } }

/-- The two writes.  The answer to the first one has the stored spec, so the selection is made again. -/
def persistPlacement (partition : NVMePartition) (device : NVMeDevice) (ref : ClaimRef) : Proc (Except Err Bool) :=
  let selected := withPlacement partition device ref
  (patchStatus .partition selected (withAuthorization selected)).check fail fun current =>
  (update .partition (withPlacement current device ref)).check fail fun _ => done true

/-- One attempt: what is retried on a conflict.  The value says whether the partition is assigned. -/
def reserveOnce (via : Reader) (partitionKey : Key) (candidate : PlacementCandidate) (requestedBytes : ℤ) :
    Proc (Except Err Bool) :=
  (get .partition via partitionKey).check (fun err => if err.isNotFound then done false else fail err) fun partition =>
  if partition.spec.nodeName ≠ [] ∨ partition.metadata.deletionTimestamp then done (partition.spec.nodeName ≠ [])
  else
    (get .device via candidate.key).check (fun err => if err.isNotFound then done false else fail err) fun device =>
    if device.spec.serialNumber ≠ candidate.serial ∨ !deviceCanHostPartition device partition then done false
    else
      (liveClaimOwnsDevice via device).check fail fun owned =>
      if !owned then done false
      else
        (get .node via ⟨[], device.spec.nodeName⟩).check fail fun rdmaNode =>
        now >>= fun t =>
        if !(Health.validate rdmaNode t).toBool || !inventoryIsReady rdmaNode then done false
        else
          (list .partition via).check fail fun partitions =>
          match availableCapacity device partitions with
          | .error err => fail err
          | .ok freeBytes =>
            if freeBytes < requestedBytes then done false
            else
              match device.status.claimRef with
              -- a nil pointer here would have been refused above
              | none => forever
              | some ref => persistPlacement partition device ref

/-- `retry.RetryOnConflict`, with the attempts that are left after this one. -/
def retryOnConflict {α : Type} (attempt : Proc (Except Err α)) : ℕ → Proc (Except Err α)
  | 0 => attempt
  | n + 1 => attempt.check (fun err => if err.isConflict then retryOnConflict attempt n else fail err) done

omit [StdLib] in
theorem retryOnConflict_safe {α W : Type} {T : Terms Call Call.Resp W} {I : W → Prop} {attempt : Proc (Except Err α)} {w : W}
    (hw : I w) (hI : ∀ w1 w2, I w1 → T.Rely w1 w2 → I w2) (h : ∀ w1, I w1 → T.Safe (fun _ => I) attempt w1) (n : ℕ) :
    T.Safe (fun _ => I) (retryOnConflict attempt n) w := by
  induction n generalizing w with
  | zero => exact h w hw
  | succ n ih =>
    refine .check ((h w hw).conseq fun r w1 _ h1 => ?_)
    cases r with
    | error err =>
      simp only
      split
      · exact ih h1
      · exact .keep h1 hI
    | ok a => exact .keep h1 hI

/-- The steps of `retry.DefaultRetry`. -/
def defaultRetrySteps : ℕ := 5

def reserveCandidate (via : Reader) (partitionKey : Key) (candidate : PlacementCandidate) (requestedBytes : ℤ) :
    Proc (Except Err Bool) :=
  lock candidate.serial >>= fun _ =>
  retryOnConflict (reserveOnce via partitionKey candidate requestedBytes) (defaultRetrySteps - 1) >>= fun result =>
  unlock candidate.serial >>= fun _ =>
  .ret result

/-! ### `Reconcile` -/

/-- Whether a reconciliation comes again by itself. -/
inductive Requeue where
  | no | after5s
  deriving DecidableEq, Repr

/-- The loop over the candidates. -/
def tryCandidates (via : Reader) (partitionKey : Key) (requestedBytes : ℤ) :
    List PlacementCandidate → Proc (Except Err Requeue)
  | [] => done .after5s
  | candidate :: candidates =>
    (reserveCandidate via partitionKey candidate requestedBytes).check fail fun assigned =>
    if assigned then done .no else tryCandidates via partitionKey requestedBytes candidates

def reconcile (via : Reader) (req : Key) : Proc (Except Err Requeue) :=
  (get .partition .cache req).check (fun err => if err.isNotFound then done .no else fail err) fun partition =>
  if partition.spec.nodeName ≠ [] then done .no
  else
    match Capacity.roundUp partition.spec.size with
    | .error err => fail (.wrapf "invalid NVMePartition capacity %q: %w" [.int partition.spec.size] err)
    | .ok requestedBytes =>
      (placementCandidates via partition requestedBytes).check fail fun candidates =>
      if candidates = [] then done .after5s
      else tryCandidates via partition.key requestedBytes candidates

/-! ### The calls of a placement -/

/-- A call that only reads, through the reader of the reconciler. -/
def asks (via : Reader) : Call → Bool
  | .api (.get _ v _) | .api (.list _ v) => v = via
  | .proc .now => true
  | _ => false

section only

variable {P : Call → Prop} {via : Reader} (hP : ∀ c, asks via c = true → P c)
include hP

theorem liveClaimOwnsDevice_only (device : NVMeDevice) : (liveClaimOwnsDevice via device).Only P := by
  unfold liveClaimOwnsDevice
  cases device.status.claimRef with
  | none => exact only_done false
  | some ref =>
    simp only
    split
    · exact only_done false
    refine .check (only_op (hP _ (decide_eq_true rfl))) (fun err => ?_) fun _ => only_done _
    split
    · exact only_done false
    · exact only_fail err

theorem readyNodes_only (nodes : List RDMAStorageNode) : (readyNodes nodes).Only P := by
  induction nodes with
  | nil => trivial
  | cons n ns ih => exact .bind (only_op (hP _ rfl)) fun _ => ih.bind fun _ => trivial

theorem collectCandidates_only (ready : List Str) (partition : NVMePartition) (partitions : List NVMePartition)
    (requestedBytes : ℤ) (devices : List NVMeDevice) :
    (collectCandidates via ready partition partitions requestedBytes devices).Only P := by
  induction devices with
  | nil => exact only_done []
  | cons device devices ih =>
    simp only [collectCandidates]
    split
    · exact ih
    split
    · exact ih
    refine (liveClaimOwnsDevice_only hP device).next fun owned => ?_
    split
    · exact ih
    split
    · exact only_fail _
    split
    · exact ih.next fun _ => only_done _
    · exact ih

theorem placementCandidates_only (partition : NVMePartition) (requestedBytes : ℤ) :
    (placementCandidates via partition requestedBytes).Only P := by
  refine .next (only_op (hP _ (decide_eq_true rfl))) fun devices => ?_
  refine .next (only_op (hP _ (decide_eq_true rfl))) fun partitions => ?_
  refine .next (only_op (hP _ (decide_eq_true rfl))) fun rdmaNodes => ?_
  refine (readyNodes_only hP rdmaNodes).bind fun ready => ?_
  exact (collectCandidates_only hP _ _ _ _ _).next fun _ => only_done _

section reserve

variable {candidate : PlacementCandidate}
  (hwrite : ∀ partition device ref, device.spec.serialNumber = candidate.serial →
    P (.api (.patchStatus .partition (withPlacement partition device ref)
      (withAuthorization (withPlacement partition device ref)))) ∧
    P (.api (.update .partition (withPlacement partition device ref))))
include hwrite

/-- What is written is a selection of a device with the serial number of the candidate. -/
theorem reserveOnce_only (hforever : P (.proc .forever)) (key : Key) (requestedBytes : ℤ) :
    (reserveOnce via key candidate requestedBytes).Only P := by
  have hread : ∀ {α : Type} {err : Err} {a : α},
      (if err.isNotFound = true then done a else fail err : Proc (Except Err α)).Only P := by
    intro α err a
    split
    · exact only_done a
    · exact only_fail err
  refine .check (only_op (hP _ (decide_eq_true rfl))) (fun _ => hread) fun partition => ?_
  split
  · exact only_done _
  refine .check (only_op (hP _ (decide_eq_true rfl))) (fun _ => hread) fun device => ?_
  split
  · exact only_done _
  rename_i hserial
  push Not at hserial
  refine (liveClaimOwnsDevice_only hP device).next fun owned => ?_
  split
  · exact only_done _
  refine .next (only_op (hP _ (decide_eq_true rfl))) fun rdmaNode => ?_
  refine .bind (only_op (hP _ rfl)) fun t => ?_
  split
  · exact only_done _
  refine .next (only_op (hP _ (decide_eq_true rfl))) fun partitions => ?_
  split
  · exact only_fail _
  split
  · exact only_done _
  split
  · exact ⟨hforever, nofun⟩
  · refine .next (only_op (hwrite _ _ _ hserial.1).1) fun current => ?_
    exact .next (only_op (hwrite current _ _ hserial.1).2) fun _ => only_done _

theorem retryReserve_only (hforever : P (.proc .forever)) (key : Key) (requestedBytes : ℤ) (n : ℕ) :
    (retryOnConflict (reserveOnce via key candidate requestedBytes) n).Only P := by
  have honce := reserveOnce_only hP hwrite hforever key requestedBytes
  induction n with
  | zero => exact honce
  | succ n ih =>
    refine honce.check (fun err => ?_) only_done
    split
    · exact ih
    · exact only_fail err

theorem reserveCandidate_only (hproc : ∀ c, P (.proc c)) (key : Key) (requestedBytes : ℤ) :
    (reserveCandidate via key candidate requestedBytes).Only P := by
  refine .bind (only_op (hproc _)) fun _ => (retryReserve_only hP hwrite (hproc _) key requestedBytes _).bind fun result => ?_
  exact .bind (only_op (hproc _)) fun _ => trivial

end reserve

variable (hproc : ∀ c, P (.proc c))
  (hwrite : ∀ base obj, P (.api (.patchStatus .partition base obj)) ∧ P (.api (.update .partition obj)))
include hproc hwrite

theorem tryCandidates_only (key : Key) (requestedBytes : ℤ) (candidates : List PlacementCandidate) :
    (tryCandidates via key requestedBytes candidates).Only P := by
  induction candidates with
  | nil => exact only_done _
  | cons candidate candidates ih =>
    have hreserve : (reserveCandidate via key candidate requestedBytes).Only P :=
      reserveCandidate_only hP (fun partition _ _ _ => ⟨(hwrite _ _).1, (hwrite partition _).2⟩) hproc key requestedBytes
    refine hreserve.next fun assigned => ?_
    split
    · exact only_done _
    · exact ih

/-- **The calls of a placement** are reads and the two writes on the partition. -/
theorem reconcile_only (hcache : ∀ key, P (.api (.get .partition .cache key))) (req : Key) :
    (reconcile via req).Only P := by
  refine .check (only_op (hcache _)) (fun err => ?_) fun partition => ?_
  · split
    · exact only_done _
    · exact only_fail err
  split
  · exact only_done _
  split
  · exact only_fail _
  refine (placementCandidates_only hP partition _).next fun candidates => ?_
  split
  · exact only_done _
  · exact tryCandidates_only hP hproc hwrite _ _ candidates

end only

/-! ### A partition, the device that it can be placed on, and a node on which all goes well -/

def volumeKey : Key := ⟨"ns", "vol"⟩

def sampleRef : ClaimRef := ⟨str "ns", str "claim", str "c1"⟩

def sampleDevice : NVMeDevice where
  metadata := { ns := [], name := "d1" }
  spec := { nodeName := "n1", pciAddress := "0000:01:00.0", serialNumber := "s1", totalCapacity := 8388608 }
  status := { state := .claimed, claimRef := some sampleRef }

def sampleClaim : NVMeDeviceClaim where
  metadata := { ns := "ns", name := "claim", uid := "c1" }
  spec := { serialNumber := "s1" }
  status := { active := true, matchedDevice := "d1", nodeName := "n1" }

def sampleNode : RDMAStorageNode where
  metadata := { ns := [], name := "n1" }
  spec := { nodeName := "n1", rdmaIP := "10.0.0.1", transport := .roCEv2 }
  status := {
    lastHeartbeatTime := some 0
    conditions := [⟨"Ready", .true, 1, "Ready", ""⟩, ⟨nvmeInventoryReadyCondition, .true, 1, "Ready", ""⟩] }

section

attribute [local instance] asciiLib

/-- A partition of 4 MiB once it is placed. -/
def samplePlaced (uid : String) : NVMePartition :=
  let p := withAuthorization (withPlacement
    ⟨{ ns := "ns", name := "vol", uid := str uid, generation := 1 }, { size := 4194304 }, {}⟩ sampleDevice sampleRef)
  { p with metadata := { p.metadata with generation := 2 } }

end

def sampleReplies : (c : Call) → Option c.Resp
  | .api (.get .claim _ _) => some (.ok sampleClaim)
  | .api (.get .device _ _) => some (.ok sampleDevice)
  | .api (.get .node _ _) => some (.ok sampleNode)
  | .api (.get .attachment _ _) => some (.error notFound)
  | .api (.patchStatus .device _ obj) => some (.ok obj)
  | .proc .now => some 1
  | .node .discoverNVMe => some (.ok [⟨"d1n1", "0000:01:00.0", "s1", 8388608⟩])
  | .plugin (.createVolume _ _ _ _) => some (.ok { backendVolumeID := "v", capacityBytes := 8388608 })
  | .plugin (.exportVolume _ _ _ _ _) => some (.ok [])
  | .plugin (.setupDevice _ _ _) | .plugin (.setupStorage _ _) | .plugin (.unexportVolume _)
  | .plugin (.deleteVolume _ _ _ _) | .plugin (.checkExport _ _ _ _ _) | .plugin (.reconcileHostAccess _ _) =>
    some (.ok ())
  | _ => none

end Distort.Manager
