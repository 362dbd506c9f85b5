import Distort.Csi.Attach

/-!
Deleting a volume: `DeleteVolume` of `controller_server.go`.

Polling is bounded by a timer, which fires after at most `polls` ticks.
-/

namespace Distort.Csi

open Go Lib Lib.Kube Api Proc

variable [StdLib]

def partitionDeletionTimeout (key : Key) (uid : Str) : Err :=
  ⟨.deletionTimeout, sprintf "timed out waiting for NVMePartition deletion %s/%s UID %s"
    [.str key.ns, .str key.name, .str uid]⟩

/-- One round of `waitForPartitionDeleted`; `again` is the next one. -/
def waitForPartitionDeletedOnce (key : Key) (uid : Str) (again : Proc (Except Err Unit)) : Proc (Except Err Unit) :=
  (get .partition .api key).check (fun err => if err.isNotFound then done () else fail err) fun current =>
  if current.metadata.uid ≠ uid then done ()
  else
    select >>= fun tick =>
    match tick with
    | .done err => fail err
    | .timer => fail (partitionDeletionTimeout key uid)
    | .ticker => again

def waitForPartitionDeleted (key : Key) (uid : Str) : ℕ → Proc (Except Err Unit)
  | 0 => waitForPartitionDeletedOnce key uid (fail (partitionDeletionTimeout key uid))
  | n + 1 => waitForPartitionDeletedOnce key uid (waitForPartitionDeleted key uid n)

/-- What the caller is told about an error of the wait. -/
def deletionStatus (err : Err) : Status :=
  if err.kind = .canceled ∨ err.kind = .deadlineExceeded then .fromContextError err
  else if err.kind = .deletionTimeout then .errorf .deadlineExceeded "%v" [.str err.text]
  else .errorf .internal "failed to verify partition deletion: %v" [.str err.text]

def deletePartitionAndWait (polls : ℕ) (partition : NVMePartition) : Proc (Except Status Unit) :=
  get .attachment .api (attachmentKey partition) >>= fun attachment =>
  match attachment with
  | .ok a => fail (.errorf .failedPrecondition "volume is still attached to node %q" [.str a.spec.nodeID])
  | .error err =>
    if !err.isNotFound then fail (.errorf .internal "failed to check volume attachment: %v" [.str err.text])
    else
      (ignoringNotFound (delete .partition partition)).check
        (fun err => fail (.errorf .internal "failed to delete partition: %v" [.str err.text])) fun _ =>
      (waitForPartitionDeleted partition.key partition.metadata.uid polls).check
        (fun err => fail (deletionStatus err)) done

/-- The partitions that a handle without a UID may stand for: the backend identity is the legacy name
too, or is not recorded. -/
def legacyMatches (volumeID : Str) (partitions : List NVMePartition) : List NVMePartition :=
  partitions.filter fun p =>
    p.metadata.name = volumeID &&
      let externalID :=
        if p.status.externalID = [] then (VolumeIdentity.externalIDFromNQN p.status.nqn).1 else p.status.externalID
      decide (externalID = [] ∨ externalID = volumeID)

def deleteLegacyVolume (polls : ℕ) (volumeID : Str) : Proc (Except Status Unit) :=
  (list .partition .api).check
    (fun err => fail (.errorf .internal "failed to resolve legacy volume ID: %v" [.str err.text])) fun partitions =>
  match legacyMatches volumeID partitions with
  | [] => done ()
  | [p] => (deletePartitionAndWait polls p).check fail done
  | _ =>
    fail (.errorf .failedPrecondition "legacy volume ID %q matches multiple partitions; refusing ambiguous deletion"
      [.str volumeID])

def deleteVolume (polls : ℕ) (volumeID : Str) : Proc (Except Status Unit) :=
  if volumeID = [] then fail ⟨.invalidArgument, "Volume ID missing in request"⟩
  else
    match VolumeIdentity.parseVolumeHandle volumeID with
    | .error _ => deleteLegacyVolume polls volumeID
    | .ok reference =>
      (get .partition .api reference.key).check
        (fun err =>
          if err.isNotFound then done ()
          else fail (.errorf .internal "failed to get partition: %v" [.str err.text])) fun partition =>
      if partition.metadata.uid ≠ reference.uid then done ()
      else (deletePartitionAndWait polls partition).check fail done

/-! ### What is asked for -/

section only

variable {P : Call → Prop} (hP : ∀ c, looks c = true → P c) (hdelete : ∀ p, P (.api (.delete .partition p)))
include hP

omit [StdLib] in
theorem waitForPartitionDeleted_only (key : Key) (uid : Str) (polls : ℕ) :
    (waitForPartitionDeleted key uid polls).Only P := by
  have honce : ∀ again : Proc (Except Err Unit), again.Only P → (waitForPartitionDeletedOnce key uid again).Only P := by
    intro again hagain
    refine .check (only_op (hP _ rfl)) (fun err => ?_) fun current => ?_
    · split
      · exact only_done _
      · exact only_fail _
    · split
      · exact only_done _
      refine .bind (only_op (hP _ rfl)) fun tick => ?_
      cases tick with
      | done err => exact only_fail _
      | timer => exact only_fail _
      | ticker => exact hagain
  induction polls with
  | zero => exact honce _ (only_fail _)
  | succ n ih => exact honce _ ih

include hdelete

theorem deletePartitionAndWait_only (polls : ℕ) (partition : NVMePartition) :
    (deletePartitionAndWait polls partition).Only P := by
  refine .bind (only_op (hP _ rfl)) fun attachment => ?_
  cases attachment with
  | ok a => exact only_fail _
  | error err =>
    simp only
    split
    · exact only_fail _
    have hignore : (ignoringNotFound (delete .partition partition)).Only P :=
      Prog.Only.next (only_op (hdelete partition)) only_done
    exact hignore.next fun _ => (waitForPartitionDeleted_only hP _ _ _).next only_done

theorem deleteVolume_only (hlist : P (.api (.list .partition .api))) (polls : ℕ) (volumeID : Str) :
    (deleteVolume polls volumeID).Only P := by
  unfold deleteVolume
  split
  · exact only_fail _
  split
  · refine .next (only_op hlist) fun partitions => ?_
    split
    · exact only_done _
    · exact (deletePartitionAndWait_only hP hdelete polls _).next only_done
    · exact only_fail _
  · refine .check (only_op (hP _ rfl)) (fun err => ?_) fun partition => ?_
    · split
      · exact only_done _
      · exact only_fail _
    · split
      · exact only_done _
      · exact (deletePartitionAndWait_only hP hdelete polls _).next only_done

end only

end Distort.Csi
