import Distort.Agent.Interface
import Distort.Identity

/-!
How the agent follows the attachment of a volume: `partition_manager.go`, lines 91 to 184.

All reads go through the informer cache of the manager's client; all writes are merge patches
addressed by name.
-/

namespace Distort.Agent

open Go Lib Lib.Kube Api Proc

variable [StdLib]

def attachmentForPartition (partition : NVMePartition) : Proc (Except Err (Option NVMeVolumeAttachment)) :=
  (get .attachment .cache ⟨partition.metadata.ns, Attachment.name partition.metadata.uid⟩).check
    (fun err => if err.isNotFound then done none else fail err) fun attachment => done (some attachment)

/-- What `setAttachmentCondition` makes of the attachment it has read. -/
def withAttachmentCondition (latest : NVMeVolumeAttachment) (attachmentID : Str)
    (conditionStatus : ConditionStatus) (reason : String) (message : Str) : NVMeVolumeAttachment :=
  { latest with
    status := {
      observedAttachmentID := if conditionStatus = .true then attachmentID else []
      conditions := setStatusCondition latest.status.conditions {
        type := Attachment.accessReadyCondition
        status := conditionStatus
        observedGeneration := latest.metadata.generation
        reason := reason
        message := message } } }

def setAttachmentCondition (key : Key) (attachmentID : Str) (conditionStatus : ConditionStatus)
    (reason : String) (message : Str) : Proc (Except Err Unit) :=
  (get .attachment .cache key).check (fun err => .ret err.ignoreNotFound) fun latest =>
  (patchStatus .attachment latest
    (withAttachmentCondition latest attachmentID conditionStatus reason message)).check fail fun _ => done ()

/-- The attachment authorizes its host: it is live, fenced, and names this volume and its own node. -/
def validAttachment (partition : NVMePartition) (a : NVMeVolumeAttachment) : Bool :=
  !a.metadata.deletionTimestamp && a.containsFinalizer Attachment.finalizer &&
    a.spec.volumeRef.name = partition.metadata.name && a.spec.volumeRef.uid = partition.metadata.uid &&
    a.spec.hostNQN = Attachment.hostNQN a.spec.nodeID

/-- The host that the target should let in. -/
def desiredHost (partition : NVMePartition) : Option NVMeVolumeAttachment → Str
  | none => []
  | some a => if validAttachment partition a then a.spec.hostNQN else []

/-- The finalizer is taken off the attachment that the caller holds. -/
def releaseFinalizer (a : NVMeVolumeAttachment) : Proc (Except Err Unit) :=
  if a.containsFinalizer Attachment.finalizer then
    (patch .attachment a (a.removeFinalizer Attachment.finalizer)).check fail fun _ => done ()
  else done ()

/-- What is left to do once the target is as it should be. -/
def acknowledgeAccess (partition : NVMePartition) : Option NVMeVolumeAttachment → Proc (Except Err Unit)
  | none => done ()
  | some a =>
    if a.metadata.deletionTimestamp then releaseFinalizer a
    else if validAttachment partition a then
      setAttachmentCondition a.key a.spec.attachmentID .true "TargetAccessAuthorized"
        "Provider target exclusively authorizes the attached node host NQN"
    else
      setAttachmentCondition a.key a.spec.attachmentID .false "AttachmentIdentityInvalid"
        "Attachment volume or host identity does not match the partition"

/-- A failure of the target is recorded on a live attachment; a failure to record it is not. -/
def reportAccessFailure (attachment : Option NVMeVolumeAttachment) (err : Err) : Proc (Except Err Unit) :=
  match attachment with
  | none => fail err
  | some a =>
    if a.metadata.deletionTimestamp then fail err
    else
      setAttachmentCondition a.key a.spec.attachmentID .false "TargetAccessFailed" err.text >>= fun _ => fail err

def reconcileAttachmentAccess (partition : NVMePartition) (backend : TargetBackend) : Proc (Except Err Unit) :=
  (attachmentForPartition partition).check fail fun attachment =>
  (backend.reconcileHostAccess partition.status.nqn (desiredHost partition attachment)).check
    (reportAccessFailure attachment) fun _ =>
  acknowledgeAccess partition attachment

def releaseAttachmentAfterUnexport (partition : NVMePartition) : Proc (Except Err Unit) :=
  (attachmentForPartition partition).check fail fun attachment =>
  match attachment with
  | none => done ()
  | some a =>
    if a.metadata.deletionTimestamp then releaseFinalizer a
    else
      (ignoringNotFound (delete .attachment a)).check fail fun _ =>
      (get .attachment .cache a.key).check (fun err => .ret err.ignoreNotFound) releaseFinalizer

/-! ### What is asked for -/

/-- A read of an attachment, a patch of its status, or one that takes the fencing finalizer off. -/
def followsAttachment : Call → Bool
  | .api (.get .attachment _ _) | .api (.patchStatus .attachment _ _) => true
  | .api (.patch .attachment base obj) => obj = base.removeFinalizer Attachment.finalizer
  | _ => false

section only

variable {P : Call → Prop} (hP : ∀ c, followsAttachment c = true → P c)
include hP

theorem attachmentForPartition_only (partition : NVMePartition) : (attachmentForPartition partition).Only P := by
  refine .check (only_op (hP _ rfl)) (fun err => ?_) fun _ => only_done _
  split
  · exact only_done _
  · exact only_fail _

omit [StdLib] in
theorem setAttachmentCondition_only (key : Key) (id : Str) (st : ConditionStatus) (reason : String) (msg : Str) :
    (setAttachmentCondition key id st reason msg).Only P :=
  Prog.Only.next (only_op (hP _ rfl)) fun _ => Prog.Only.next (only_op (hP _ rfl)) fun _ => only_done ()

omit [StdLib] in
theorem releaseFinalizer_only (a : NVMeVolumeAttachment) : (releaseFinalizer a).Only P := by
  unfold releaseFinalizer
  split
  · exact .next (only_op (hP _ (decide_eq_true rfl))) fun _ => only_done ()
  · exact only_done ()

theorem reconcileAttachmentAccess_only {partition : NVMePartition} {backend : TargetBackend}
    (hb : ∀ nqn hostNQN, (backend.reconcileHostAccess nqn hostNQN).Only P) :
    (reconcileAttachmentAccess partition backend).Only P := by
  refine (attachmentForPartition_only hP partition).next fun attachment =>
    (hb _ _).check (fun err => ?_) fun _ => ?_
  · cases attachment with
    | none => exact only_fail err
    | some a =>
      simp only [reportAccessFailure]
      split
      · exact only_fail err
      · exact (setAttachmentCondition_only hP _ _ _ _ _).bind fun _ => only_fail err
  · cases attachment with
    | none => exact only_done ()
    | some a =>
      simp only [acknowledgeAccess]
      split
      · exact releaseFinalizer_only hP a
      split
      · exact setAttachmentCondition_only hP _ _ _ _ _
      · exact setAttachmentCondition_only hP _ _ _ _ _

theorem releaseAttachmentAfterUnexport_only (hdelete : ∀ a, P (.api (.delete .attachment a)))
    (partition : NVMePartition) : (releaseAttachmentAfterUnexport partition).Only P := by
  refine (attachmentForPartition_only hP partition).next fun attachment => ?_
  cases attachment with
  | none => exact only_done ()
  | some a =>
    simp only
    split
    · exact releaseFinalizer_only hP a
    have hignore : (ignoringNotFound (delete .attachment a)).Only P :=
      Prog.Only.next (only_op (hdelete a)) only_done
    exact hignore.next fun _ =>
      Prog.Only.next (only_op (hP _ rfl)) fun latest => releaseFinalizer_only hP latest

end only

end Distort.Agent
