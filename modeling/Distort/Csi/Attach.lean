import Distort.Api.Calls
import Distort.Csi.Capability
import Distort.Identity

/-!
Attaching a volume to a node: `controller_attachment.go`.

The loop of `ControllerPublishVolume` has no bound of its own, so it takes the number of rounds it
may still go (`rounds`) and never returns once they are used up; a statement for all `rounds` is a
statement about every run.  Polling is bounded by a timer, which fires after at most `polls` ticks.
-/

namespace Distort.Csi

open Go Lib Lib.Kube Api Proc

variable [StdLib]

structure PublishRequest where
  volumeID : Str
  nodeID : Str
  volumeContext : Params
  volumeCapability : Option VolumeCapability

/-- The publish context. -/
structure PublishResponse where
  nodeID : Str
  hostNQN : Str
  attachmentID : Str
  deriving DecidableEq

structure UnpublishRequest where
  volumeID : Str
  nodeID : Str

def hostNQNForNode (nodeID : Str) : Str := Attachment.hostNQN nodeID

/-- The key shared by all attachments of a partition. -/
def attachmentKey (partition : NVMePartition) : Key :=
  ⟨partition.metadata.ns, Attachment.name partition.metadata.uid⟩

/-! ### Polling -/

/-- One round of `pollAttachment`; `again` is the next one. -/
def pollAttachmentOnce (key : Key) (complete : Option NVMeVolumeAttachment → Except Status Bool)
    (timeoutMessage : String) (again : Proc (Except Status Unit)) : Proc (Except Status Unit) :=
  get .attachment .api key >>= fun current =>
  let value : Except Status (Option NVMeVolumeAttachment) :=
    match current with
    | .ok a => .ok (some a)
    | .error err =>
      if err.isNotFound then .ok none
      else .error (.errorf .internal "Failed to observe volume attachment: %v" [.str err.text])
  match value.bind complete with
  | .error s => fail s
  | .ok true => done ()
  | .ok false =>
    select >>= fun tick =>
    match tick with
    | .done err => fail (.fromContextError err)
    | .timer => fail ⟨.deadlineExceeded, timeoutMessage⟩
    | .ticker => again

def pollAttachment (key : Key) (complete : Option NVMeVolumeAttachment → Except Status Bool)
    (timeoutMessage : String) : ℕ → Proc (Except Status Unit)
  | 0 => pollAttachmentOnce key complete timeoutMessage (fail ⟨.deadlineExceeded, timeoutMessage⟩)
  | n + 1 => pollAttachmentOnce key complete timeoutMessage (pollAttachment key complete timeoutMessage n)

/-- Whether the attachment has been authorized by the target. -/
def attachmentReady (attachmentID : Str) : Option NVMeVolumeAttachment → Except Status Bool
  | none => .error ⟨.aborted, "Volume attachment was revoked while waiting for target authorization"⟩
  | some current =>
    if current.metadata.deletionTimestamp then
      .error ⟨.aborted, "Volume attachment was revoked while waiting for target authorization"⟩
    else
      .ok (current.status.observedAttachmentID = attachmentID &&
        isStatusConditionTrue current.status.conditions Attachment.accessReadyCondition)

def waitForAttachmentReady (polls : ℕ) (key : Key) (attachmentID : Str) : Proc (Except Status Unit) :=
  pollAttachment key (attachmentReady attachmentID)
    "Timed out waiting for provider target to authorize attachment" polls

def waitForAttachmentDeleted (polls : ℕ) (key : Key) : Proc (Except Status Unit) :=
  pollAttachment key (fun current => .ok current.isNone)
    "Timed out waiting for provider target to revoke attachment" polls

/-! ### The partition of a volume handle -/

def partitionForVolumeHandle (volumeID : Str) : Proc (Except Status NVMePartition) :=
  match VolumeIdentity.parseVolumeHandle volumeID with
  | .error err =>
    fail (.errorf .notFound "Volume handle is invalid or legacy and cannot be attached: %v" [.str err.text])
  | .ok reference =>
    (get .partition .api reference.key).check
      (fun err =>
        if err.isNotFound then fail ⟨.notFound, "Volume does not exist"⟩
        else fail (.errorf .internal "Failed to get volume: %v" [.str err.text])) fun partition =>
    if partition.metadata.uid ≠ reference.uid then fail ⟨.notFound, "Volume no longer exists"⟩
    else done partition

/-! ### `ControllerPublishVolume` -/

/-- The attachment that a publish for a node creates. -/
def desiredAttachment (partition : NVMePartition) (nodeID attachmentID : Str) : NVMeVolumeAttachment where
  metadata := {
    ns := (attachmentKey partition).ns
    name := (attachmentKey partition).name
    finalizers := [Attachment.finalizer]
    ownerReferences := [{
      apiVersion := "storage.distort.io/v1alpha1", kind := "NVMePartition"
      name := partition.metadata.name, uid := partition.metadata.uid
      controller := true, blockOwnerDeletion := true }] }
  spec := {
    volumeRef := ⟨partition.metadata.name, partition.metadata.uid⟩
    nodeID
    hostNQN := hostNQNForNode nodeID
    attachmentID }
  status := {}

/-- One round of the loop from where the attachment is known; `again` is the next round. -/
def publishExisting (polls : ℕ) (req : PublishRequest) (partition : NVMePartition)
    (again : Proc (Except Status PublishResponse)) (existing : NVMeVolumeAttachment) :
    Proc (Except Status PublishResponse) :=
  let key := attachmentKey partition
  if existing.spec.volumeRef.name ≠ partition.metadata.name ∨
      existing.spec.volumeRef.uid ≠ partition.metadata.uid then
    fail ⟨.failedPrecondition, "Attachment identity does not match the requested volume"⟩
  else if existing.metadata.deletionTimestamp then
    (waitForAttachmentDeleted polls key).check fail fun _ => again
  else if existing.spec.nodeID ≠ req.nodeID then
    if existing.annotation Attachment.forceDetachAnnotation ≠ existing.spec.nodeID then
      fail (.errorf .failedPrecondition
        "Volume is attached to node %q; annotate %s with %s=%q only after confirming the old node is fenced"
        [.str existing.spec.nodeID, .str key.string, .str Attachment.forceDetachAnnotation,
          .str existing.spec.nodeID])
    else
      (ignoringNotFound (delete .attachment existing)).check
        (fun err =>
          fail (.errorf .internal "Failed to begin forced attachment revocation: %v" [.str err.text])) fun _ =>
      (waitForAttachmentDeleted polls key).check fail fun _ => again
  else
    (waitForAttachmentReady polls key existing.spec.attachmentID).check fail fun _ =>
    done {
      nodeID := existing.spec.nodeID
      hostNQN := existing.spec.hostNQN
      attachmentID := existing.spec.attachmentID }

/-- One round of the loop. -/
def publishRound (polls : ℕ) (req : PublishRequest) (partition : NVMePartition)
    (again : Proc (Except Status PublishResponse)) : Proc (Except Status PublishResponse) :=
  (get .attachment .api (attachmentKey partition)).check
    (fun err =>
      if err.isNotFound then
        newUUID >>= fun id =>
        (create .attachment (desiredAttachment partition req.nodeID id)).check
          (fun err =>
            if err.isAlreadyExists then again
            else fail (.errorf .internal "Failed to create volume attachment: %v" [.str err.text]))
          (publishExisting polls req partition again)
      else fail (.errorf .internal "Failed to get volume attachment: %v" [.str err.text]))
    (publishExisting polls req partition again)

def publishLoop (polls : ℕ) (req : PublishRequest) (partition : NVMePartition) :
    ℕ → Proc (Except Status PublishResponse)
  | 0 => forever
  | n + 1 => publishRound polls req partition (publishLoop polls req partition n)

def controllerPublishVolume (rounds polls : ℕ) (req : PublishRequest) : Proc (Except Status PublishResponse) :=
  if req.volumeID = [] ∨ req.nodeID = [] then
    fail ⟨.invalidArgument, "Volume ID and node ID must be provided"⟩
  else
    match validateVolumeCapabilities req.volumeContext [req.volumeCapability] with
    | .error err => fail (.errorf .invalidArgument "Invalid volume capability: %v" [.str err.text])
    | .ok _ =>
      (partitionForVolumeHandle req.volumeID).check fail fun partition =>
      if partition.status.state ≠ .exported then
        fail (.errorf .failedPrecondition "Volume %s is not exported" [.str req.volumeID])
      else publishLoop polls req partition rounds

/-! ### `ControllerUnpublishVolume` -/

def controllerUnpublishVolume (polls : ℕ) (req : UnpublishRequest) : Proc (Except Status Unit) :=
  if req.volumeID = [] then fail ⟨.invalidArgument, "Volume ID must be provided"⟩
  else
    (partitionForVolumeHandle req.volumeID).check
      (fun s => if s.code = .notFound then done () else fail s) fun partition =>
    (get .attachment .api (attachmentKey partition)).check
      (fun err =>
        if err.isNotFound then done ()
        else fail (.errorf .internal "Failed to get volume attachment: %v" [.str err.text])) fun existing =>
    if req.nodeID ≠ [] ∧ existing.spec.nodeID ≠ req.nodeID then done ()
    else
      (ignoringNotFound (delete .attachment existing)).check
        (fun err => fail (.errorf .internal "Failed to delete volume attachment: %v" [.str err.text])) fun _ =>
      (waitForAttachmentDeleted polls (attachmentKey partition)).check fail done

/-! ### What is asked for -/

/-- A read of a partition or an attachment, or a wait. -/
def looks : Call → Bool
  | .api (.get .partition .api _) | .api (.get .attachment .api _) | .proc .select => true
  | _ => false

section only

variable {P : Call → Prop} (hP : ∀ c, looks c = true → P c)
include hP

omit [StdLib] in
theorem pollAttachment_only (key : Key) (complete : Option NVMeVolumeAttachment → Except Status Bool)
    (timeoutMessage : String) (polls : ℕ) : (pollAttachment key complete timeoutMessage polls).Only P := by
  have honce : ∀ again : Proc (Except Status Unit), again.Only P →
      (pollAttachmentOnce key complete timeoutMessage again).Only P := by
    intro again hagain
    refine .bind (only_op (hP _ rfl)) fun current => ?_
    simp only
    split
    · exact only_fail _
    · exact only_done _
    refine .bind (only_op (hP _ rfl)) fun tick => ?_
    cases tick with
    | done err => exact only_fail _
    | timer => exact only_fail _
    | ticker => exact hagain
  induction polls with
  | zero => exact honce _ (only_fail _)
  | succ n ih => exact honce _ ih

omit [StdLib] in
theorem partitionForVolumeHandle_only (volumeID : Str) : (partitionForVolumeHandle volumeID).Only P := by
  unfold partitionForVolumeHandle
  split
  · exact only_fail _
  refine .check (only_op (hP _ rfl)) (fun err => ?_) fun partition => ?_
  · split <;> exact only_fail _
  · split
    · exact only_fail _
    · exact only_done _

theorem controllerUnpublishVolume_only (hdelete : ∀ a, P (.api (.delete .attachment a))) (polls : ℕ)
    (req : UnpublishRequest) : (controllerUnpublishVolume polls req).Only P := by
  unfold controllerUnpublishVolume
  split
  · exact only_fail _
  refine (partitionForVolumeHandle_only hP _).check (fun s => ?_) fun partition => ?_
  · split
    · exact only_done _
    · exact only_fail _
  refine .check (only_op (hP _ rfl)) (fun err => ?_) fun existing => ?_
  · split
    · exact only_done _
    · exact only_fail _
  split
  · exact only_done _
  have hignore : (ignoringNotFound (delete .attachment existing)).Only P :=
    Prog.Only.next (only_op (hdelete existing)) only_done
  exact hignore.next fun _ => (pollAttachment_only hP _ _ _ _).next only_done

end only

end Distort.Csi
