import Distort.Api.Calls

/-!
Binding claims to devices: `nvmedeviceclaim_controller.go`.

`via` is the reader of the reconciler, the server or the cache.
-/

namespace Distort.Manager.Claim

open Go Lib Lib.Kube Api Proc

def claimFinalizer : Str := "storage.distort.io/claim-cleanup"
def claimBoundCondition : Str := "Bound"
def deviceReadyCondition : Str := "HardwareAvailable"

/-- `ctrl.Result`: the seconds after which the reconciliation comes again, or zero. -/
abbrev Result : Type := ℤ

def claimRequeueInterval : Result := 30
def claimDeleteInterval : Result := 5

def deviceIsPresent (device : NVMeDevice) : Bool :=
  if device.status.state = .unavailable then false
  else
    match findStatusCondition device.status.conditions deviceReadyCondition with
    | none => true
    | some condition => condition.status ≠ .false

/-- The reference to a claim. -/
def reference (claim : NVMeDeviceClaim) : ClaimRef := ⟨claim.metadata.ns, claim.metadata.name, claim.metadata.uid⟩

def claimOwnsDevice (claim : NVMeDeviceClaim) (device : NVMeDevice) : Bool :=
  match device.status.claimRef with
  | none => false
  | some ref => ref.ns = claim.metadata.ns && ref.name = claim.metadata.name && ref.uid = claim.metadata.uid

theorem claimOwnsDevice_iff {claim : NVMeDeviceClaim} {d : NVMeDevice} :
    claimOwnsDevice claim d = true ↔ d.status.claimRef = some (reference claim) := by
  unfold claimOwnsDevice reference
  cases d.status.claimRef with
  | none => simp
  | some ref =>
    obtain ⟨ns, name, uid⟩ := ref
    simp [and_assoc]

/-- What `updateClaimStatus` sets. -/
structure Binding where
  active : Bool
  device : Str
  node : Str
  conditionStatus : ConditionStatus
  reason : Str
  message : Str

def updateClaimStatus (via : Reader) (claim : NVMeDeviceClaim) (b : Binding) : Proc (Except Err Unit) :=
  (get .claim via claim.key).check fail fun latest =>
  (patchStatus .claim latest { latest with
    status := {
      active := b.active
      matchedDevice := b.device
      nodeName := b.node
      conditions := setStatusCondition latest.status.conditions {
        type := claimBoundCondition
        status := b.conditionStatus
        observedGeneration := latest.metadata.generation
        reason := b.reason
        message := b.message } } }).check fail fun _ => done ()

/-- The device without its claim. -/
def released (device : NVMeDevice) : NVMeDevice :=
  { device with
    status := { device.status with
      claimRef := none
      state := if deviceIsPresent device then .available else .unavailable } }

def releaseDevice (claim : NVMeDeviceClaim) (device : NVMeDevice) : Proc (Except Err Unit) :=
  if !claimOwnsDevice claim device then done ()
  else (patchStatus .device device (released device)).check fail fun _ => done ()

/-- The loops that release all devices of the claim but one. -/
def releaseOthers (claim : NVMeDeviceClaim) (name : Str) : List NVMeDevice → Proc (Except Err Unit)
  | [] => done ()
  | device :: devices =>
    if device.metadata.name ≠ name && claimOwnsDevice claim device then
      (releaseDevice claim device).check fail fun _ => releaseOthers claim name devices
    else releaseOthers claim name devices

/-! ### Finalization -/

/-- The partition refers to the claim. -/
def dependsOn (claim : NVMeDeviceClaim) (partition : NVMePartition) : Bool :=
  partition.spec.claimRef.any fun ref => ref.uid = claim.metadata.uid

/-- The device that the claim has matched is released. -/
def releaseMatched (via : Reader) (claim : NVMeDeviceClaim) : Proc (Except Err Unit) :=
  if claim.status.matchedDevice ≠ [] then
    (get .device via ⟨[], claim.status.matchedDevice⟩).check
      (fun err => if err.isNotFound then done () else fail err) (releaseDevice claim)
  else done ()

def finalizeClaim (via : Reader) (claim : NVMeDeviceClaim) : Proc (Except Err Result) :=
  if !claim.containsFinalizer claimFinalizer then done 0
  else
    (list .partition via).check fail fun partitions =>
    if partitions.any (dependsOn claim) then done claimDeleteInterval
    else
      (releaseMatched via claim).check fail fun _ =>
      (list .device via).check fail fun devices =>
      (releaseOthers claim claim.status.matchedDevice devices).check fail fun _ =>
      (patch .claim claim (claim.removeFinalizer claimFinalizer)).check fail fun _ => done 0

/-! ### Binding -/

/-- The claim stays as it was, inactive, for a reason. -/
def unbound (claim : NVMeDeviceClaim) (reason message : Str) : Binding :=
  ⟨false, claim.status.matchedDevice, claim.status.nodeName, .false, reason, message⟩

/-- The device with the claim. -/
def bound (claim : NVMeDeviceClaim) (device : NVMeDevice) : NVMeDevice :=
  { device with status := { device.status with state := .claimed, claimRef := some (reference claim) } }

/-- The device belongs, or once belonged, to another claim. -/
def ownedByAnother (claim : NVMeDeviceClaim) (device : NVMeDevice) : Bool :=
  let legacyMatch := device.status.claimRef = none && claim.status.active &&
    decide (claim.status.matchedDevice = device.metadata.name)
  let ownedByAnotherClaim := device.status.claimRef ≠ none && !claimOwnsDevice claim device
  let legacyOwnershipConflict := device.status.state = .claimed && !claimOwnsDevice claim device && !legacyMatch
  ownedByAnotherClaim || legacyOwnershipConflict

variable [StdLib]

def reconcileClaimBinding (via : Reader) (claim : NVMeDeviceClaim) : Proc (Except Err Result) :=
  (list .device via).check fail fun devices =>
  let matching := devices.filter fun d => equalFold d.spec.serialNumber claim.spec.serialNumber
  match matching.filter deviceIsPresent with
  | [] =>
    (updateClaimStatus via claim (unbound claim "DeviceUnavailable"
      "No currently available NVMeDevice has the requested serial number")).check fail fun _ => done claimRequeueInterval
  | [device] =>
    if ownedByAnother claim device then
      (updateClaimStatus via claim (unbound claim "OwnedByAnotherClaim"
        "The matching NVMeDevice is owned by another claim")).check fail fun _ => done claimRequeueInterval
    else
      (patchStatus .device device (bound claim device)).check fail fun device =>
      (releaseOthers claim device.metadata.name matching).check fail fun _ =>
      (updateClaimStatus via claim ⟨true, device.metadata.name, device.spec.nodeName, .true, "DeviceBound",
        "The claim is bound to an available NVMeDevice"⟩).check fail fun _ => done claimRequeueInterval
  | _ =>
    (updateClaimStatus via claim (unbound claim "AmbiguousDevices"
      "Multiple available NVMeDevices have the requested serial number")).check fail fun _ => done claimRequeueInterval

/-- The finalizer is added to the claim; the answer of the server takes its place. -/
def ensureFinalizer (claim : NVMeDeviceClaim) : Proc (Except Err NVMeDeviceClaim) :=
  if claim.containsFinalizer claimFinalizer then done claim else update .claim (claim.addFinalizer claimFinalizer)

def reconcile (via : Reader) (req : Key) : Proc (Except Err Result) :=
  (get .claim via req).check (fun err => if err.isNotFound then done 0 else fail err) fun claim =>
  if claim.metadata.deletionTimestamp then finalizeClaim via claim
  else (ensureFinalizer claim).check fail (reconcileClaimBinding via)

/-! ### The calls of a reconciliation -/

/-- A read, or a write of the status of a claim. -/
def records (via : Reader) : Call → Bool
  | .api (.get _ v _) | .api (.list _ v) => v = via
  | .api (.patchStatus .claim _ _) => true
  | _ => false

section only

variable {P : Call → Prop} {via : Reader} (hP : ∀ c, records via c = true → P c)
  (hrelease : ∀ device, P (.api (.patchStatus .device device (released device)))) (claim : NVMeDeviceClaim)

omit [StdLib] in
include hP in
theorem updateClaimStatus_only (b : Binding) : (updateClaimStatus via claim b).Only P :=
  Prog.Only.next (only_op (hP _ (decide_eq_true rfl))) fun _ =>
    Prog.Only.next (only_op (hP _ rfl)) fun _ => only_done ()

include hrelease

omit [StdLib] in
theorem releaseDevice_only (device : NVMeDevice) : (releaseDevice claim device).Only P := by
  unfold releaseDevice
  split
  · exact only_done ()
  · exact .next (only_op (hrelease device)) fun _ => only_done ()

omit [StdLib] in
theorem releaseOthers_only (name : Str) (devices : List NVMeDevice) : (releaseOthers claim name devices).Only P := by
  induction devices with
  | nil => exact only_done ()
  | cons device devices ih =>
    unfold releaseOthers
    split
    · exact (releaseDevice_only hrelease claim device).next fun _ => ih
    · exact ih

include hP

omit [StdLib] in
theorem releaseMatched_only : (releaseMatched via claim).Only P := by
  unfold releaseMatched
  split
  · refine .check (only_op (hP _ (decide_eq_true rfl))) (fun err => ?_) (releaseDevice_only hrelease claim)
    split
    · exact only_done ()
    · exact only_fail err
  · exact only_done ()

omit [StdLib] in
theorem finalizeClaim_only (hpatch : P (.api (.patch .claim claim (claim.removeFinalizer claimFinalizer)))) :
    (finalizeClaim via claim).Only P := by
  unfold finalizeClaim
  split
  · exact only_done _
  refine .next (only_op (hP _ (decide_eq_true rfl))) fun partitions => ?_
  split
  · exact only_done _
  refine (releaseMatched_only hP hrelease claim).next fun _ => ?_
  refine .next (only_op (hP _ (decide_eq_true rfl))) fun devices => ?_
  refine (releaseOthers_only hrelease claim _ devices).next fun _ => ?_
  exact .next (only_op hpatch) fun _ => only_done _

theorem reconcileClaimBinding_only (hbind : ∀ device, P (.api (.patchStatus .device device (bound claim device)))) :
    (reconcileClaimBinding via claim).Only P := by
  have hend : ∀ b, ((updateClaimStatus via claim b).check fail fun _ => done claimRequeueInterval).Only P :=
    fun b => (updateClaimStatus_only hP claim b).next fun _ => only_done _
  refine .next (only_op (hP _ (decide_eq_true rfl))) fun devices => ?_
  simp only
  split
  · exact hend _
  · split
    · exact hend _
    · refine .next (only_op (hbind _)) fun device => ?_
      exact (releaseOthers_only hrelease claim _ _).next fun _ => hend _
  · exact hend _

omit claim in
/-- **The calls of a reconciliation**, where those that write on the claim itself are given. -/
theorem reconcile_only (hbind : ∀ claim device, P (.api (.patchStatus .device device (bound claim device))))
    (hwrite : ∀ base obj, P (.api (.patch .claim base obj)) ∧ P (.api (.update .claim obj))) (req : Key) :
    (reconcile via req).Only P := by
  refine .check (only_op (hP _ (decide_eq_true rfl))) (fun err => ?_) fun claim => ?_
  · split
    · exact only_done _
    · exact only_fail err
  split
  · exact finalizeClaim_only hP hrelease claim (hwrite _ _).1
  refine .next ?_ fun claim => reconcileClaimBinding_only hP hrelease claim (hbind claim)
  unfold ensureFinalizer
  split
  · exact only_done _
  · exact only_op (hwrite claim _).2

end only

end Distort.Manager.Claim
