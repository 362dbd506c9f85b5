import Distort.Csi.Node
import Distort.Lib.Server

/-!
What the node plugin does to the volumes themselves: `NodeStageVolume` formats a volume on which it has found nothing.

* `disks` — the volumes behind the devices of a node, and what is on them; a command fails with or without its effect,
  and volumes come and go with their connections;
* `never_reformatted` — a filesystem survives every sequence of stage and unstage requests, each of them cut off anywhere.
-/

namespace Distort.Csi

open Go Lib Lib.Prog

/-! ### The node -/

structure Disks where
  /-- The volume that a device leads to. -/
  device : Str → Option Str
  filesystem : Str → Option Str

/-- `blkid` has found nothing. -/
def saysBlank [StdLib] : Except Failure Str → Bool
  | .error f => f.exitCode = some 2
  | .ok out => normalizeFilesystem out = []

/-- What is answered, and what may become of the volumes.  `mkfs` may do anything to the one behind its device. -/
def disks [StdLib] : Server HostCall HostCall.Resp Disks
  | .blkid _ source, w, r, w' => w' = w ∧ (saysBlank r = true → (w.device source).bind w.filesystem = none)
  | .mkfs _ _ args, w, _, w' => ∀ volume, w'.filesystem volume = w.filesystem volume ∨
    args.getLast?.bind w.device = some volume
  | .nvmeConnect _ _ _ _ _, w, _, w' | .nvmeDisconnect _ _, w, _, w' => w'.filesystem = w.filesystem
  | _, w, _, w' => w' = w

/-- The filesystems that there were are still there. -/
def Spared (w w' : Disks) : Prop := ∀ volume fs, w.filesystem volume = some fs → w'.filesystem volume = some fs

/-! ### Without formatting -/

def formats : HostCall → Bool
  | .mkfs _ _ _ => true
  | _ => false

variable (ctx : Ctx)

section keeps

variable [StdLib] {w0 w : Disks} {α ε : Type}

theorem op_spares {c : HostCall} (hc : formats c = false) : (HostProc.op c).Keeps disks (Spared w0) := by
  refine .op fun w r w' hw hr => ?_
  have hkept : w'.filesystem = w.filesystem := by
    cases c <;> first
      | exact congrArg _ hr
      | exact congrArg _ hr.1
      | exact hr
      | cases hc
  exact fun volume fs hfs => (congrFun hkept volume).trans (hw volume fs hfs)

theorem interruptedOr_spares {ctx : Ctx} {g : Err → ε} {k : HostProc (Except ε α)} (hk : k.Keeps disks (Spared w0)) :
    (HostProc.interruptedOr ctx g k).Keeps disks (Spared w0) := by
  refine (op_spares rfl).bind fun err => ?_
  cases err with
  | some err => exact .ret _
  | none => exact hk

theorem nodeOperationError_spares (message err : Str) : (nodeOperationError message err).Keeps disks (Spared w0) :=
  (op_spares rfl).bind fun _ => .ret _

theorem getDeviceByNQN_spares (nqn : Str) : (getDeviceByNQN ctx nqn).Keeps disks (Spared w0) :=
  (op_spares rfl).check (fun _ => interruptedOr_spares (.ret _)) fun _ => .ret _

theorem connectRDMA_spares (nqn portalIP portalPort hostNQN : Str) :
    (connectRDMA ctx nqn portalIP portalPort hostNQN).Keeps disks (Spared w0) := by
  refine (getDeviceByNQN_spares ctx nqn).bind fun device => ?_
  cases device with
  | ok device => exact .ret _
  | error err =>
    refine interruptedOr_spares ((op_spares rfl).check (fun f => interruptedOr_spares ?_) fun _ => .ret _)
    split
    · exact .ret _
    refine (getDeviceByNQN_spares ctx nqn).bind fun device => ?_
    cases device <;> exact .ret _

theorem disconnectRDMA_spares (nqn : Str) : (disconnectRDMA ctx nqn).Keeps disks (Spared w0) := by
  refine (op_spares rfl).check (fun f => interruptedOr_spares ?_) fun _ => .ret _
  split <;> exact .ret _

theorem takeBack_spares (stage : ValidatedNodeStageRequest) (connection directory : Bool) :
    (takeBack stage connection directory).Keeps disks (Spared w0) := by
  refine .bind ?_ fun _ => ?_
  · split
    · exact (disconnectRDMA_spares .cleanup stage.nqn).bind fun _ => .ret _
    · exact .ret _
  · split
    · exact (op_spares rfl).bind fun _ => .ret _
    · exact .ret _

theorem waitForDevice_spares (device : Str) (polls : ℕ) : (waitForDevice device polls).Keeps disks (Spared w0) := by
  have honce {again : HostProc (Except Err Unit)} (h : again.Keeps disks (Spared w0)) :
      (waitForDeviceOnce device again).Keeps disks (Spared w0) := by
    refine (op_spares rfl).bind fun info => ?_
    cases info with
    | ok _ => exact .ret _
    | error err =>
      dsimp only
      split
      · exact .ret _
      refine (op_spares rfl).bind fun tick => ?_
      cases tick with
      | ticker => exact h
      | _ => exact .ret _
  induction polls with
  | zero => exact honce (.ret _)
  | succ polls ih => exact honce ih

theorem unmount_spares (target : Str) (rounds : ℕ) : (unmount ctx target rounds).Keeps disks (Spared w0) := by
  induction rounds with
  | zero => exact fun w hw => ⟨hw, fun r => nomatch r⟩
  | succ rounds ih =>
    refine interruptedOr_spares ((op_spares rfl).bind fun data => ?_)
    split
    · exact .ret _
    · exact .ret _
    refine (op_spares rfl).check (fun f => interruptedOr_spares ?_) fun _ => ih
    split <;> exact .ret _

theorem verifyStagingMount_spares (source target filesystem : Str) :
    (verifyStagingMount source target filesystem).Keeps disks (Spared w0) := by
  refine (op_spares rfl).bind fun data => ?_
  split
  · exact .ret _
  · exact .ret _
  refine (op_spares rfl).check (fun _ => .ret _) fun _ => ?_
  split_ifs <;> exact .ret _

/-! ### Formatting -/

theorem probeFilesystem_holds (source : Str) (hw : Spared w0 w) :
    (probeFilesystem .request source).Holds disks (Spared w0)
      (fun r w' => r = .ok [] → (w'.device source).bind w'.filesystem = none) w := by
  refine .bind (.op hw fun r w1 hr => ?_)
  obtain ⟨rfl, hblank⟩ : w1 = w ∧ _ := hr
  refine ⟨hw, ?_⟩
  rcases r with f | out
  · refine .bind (.op hw fun err w2 hsame => ?_)
    obtain rfl : w2 = w1 := hsame
    refine ⟨hw, ?_⟩
    cases err with
    | some err => exact .ret hw nofun
    | none =>
      dsimp only
      split
      · exact .ret hw fun _ => hblank (decide_eq_true ‹_›)
      · exact .ret hw nofun
  · exact .ret hw fun h => hblank (decide_eq_true (Except.ok.inj h))

theorem ensureFilesystemContext_spares (source fsType : Str) :
    (ensureFilesystemContext .request source fsType).Keeps disks (Spared w0) := by
  intro w hw
  refine .check ((probeFilesystem_holds source hw).mono fun r w1 hw1 hprobe => ?_)
  rcases r with err | detected
  · exact .ret hw1 hw1
  dsimp only
  split
  swap
  · split <;> exact .ret hw1 hw1
  have hnone := hprobe (congrArg Except.ok ‹detected = []›)
  refine .bind (Holds.mono (Q := fun _ => Spared w0) ?_ fun r w2 hw2 _ => ?_)
  swap
  · cases r <;> exact .ret hw2 hw2
  unfold formatFilesystem
  split
  · exact .ret hw1 hw1
  rename_i command args hcommand
  have hlast : args.getLast? = some source := by
    unfold filesystemFormatCommand at hcommand
    split_ifs at hcommand <;> cases hcommand <;> rfl
  refine .bind (.op hw1 fun r w2 hr => ?_)
  -- the one volume that may be different holds no filesystem
  have hw2 : Spared w0 w2 := by
    intro volume fs hfs
    rcases hr volume with hkept | hbehind
    · exact hkept.trans (hw1 volume fs hfs)
    · rw [hlast, Option.bind_some] at hbehind
      rw [hbehind, Option.bind_some, hw1 volume fs hfs] at hnone
      cases hnone
  refine ⟨hw2, ?_⟩
  cases r with
  | error f => exact interruptedOr_spares (.ret _) w2 hw2
  | ok _ => exact .ret hw2 hw2

theorem formatAndMount_spares (rounds : ℕ) (source target fsType : Str) :
    (formatAndMount rounds .request source target fsType).Keeps disks (Spared w0) := by
  refine (op_spares rfl).check (fun _ => .ret _) fun _ => ?_
  refine (verifyStagingMount_spares source target fsType).check (fun _ => .ret _) fun mounted => ?_
  split
  · exact .ret _
  refine (ensureFilesystemContext_spares source fsType).check (fun _ => .ret _) fun _ => ?_
  refine (op_spares rfl).check (fun _ => interruptedOr_spares (.ret _)) fun _ => ?_
  refine (verifyStagingMount_spares source target fsType).bind fun mounted => ?_
  split
  · exact .ret _
  · exact (unmount_spares _ target rounds).bind fun _ => .ret _
  · exact (unmount_spares _ target rounds).bind fun _ => .ret _

/-! ### Requests -/

theorem stageConnected_spares (polls rounds : ℕ) (stage : ValidatedNodeStageRequest) (connection directory : Bool) :
    (stageConnected polls rounds stage connection directory).Keeps disks (Spared w0) := by
  have hgiveUp : ∀ status, (rollback rounds stage false connection directory >>= fun _ =>
      (HostProc.fail status : HostProc (Except Status Unit))).Keeps disks (Spared w0) :=
    fun _ => (takeBack_spares stage connection directory).bind fun _ => .ret _
  refine (getDeviceByNQN_spares .request stage.nqn).bind fun device => ?_
  cases device with
  | error err => exact (nodeOperationError_spares _ _).bind hgiveUp
  | ok devPath =>
    refine (waitForDevice_spares devPath polls).bind fun appeared => ?_
    cases appeared with
    | error err => exact (nodeOperationError_spares _ _).bind hgiveUp
    | ok _ =>
      refine (formatAndMount_spares rounds devPath stage.stagingTargetPath stage.filesystem).bind fun mounted => ?_
      split
      · exact hgiveUp _
      · exact hgiveUp _
      · exact (nodeOperationError_spares _ _).bind hgiveUp
      · exact .ret _

theorem stageVolume_spares (polls rounds : ℕ) (stage : ValidatedNodeStageRequest) :
    (stageVolume polls rounds stage).Keeps disks (Spared w0) := by
  have hfailed : ∀ connection directory err, (takeBack stage connection directory >>= fun _ =>
      nodeOperationError "Failed to connect to NVMe-oF target" err >>= HostProc.fail :
      HostProc (Except Status Unit)).Keeps disks (Spared w0) := fun connection directory _ =>
    (takeBack_spares stage connection directory).bind fun _ => (nodeOperationError_spares _ _).bind fun _ => .ret _
  refine (op_spares rfl).bind fun info => ?_
  cases info with
  | ok _ =>
    refine (connectRDMA_spares _ _ _ _ _).bind fun connected => ?_
    rcases connected with ⟨connection, err⟩ | connection
    · exact hfailed connection false _
    · exact stageConnected_spares polls rounds stage connection false
  | error err =>
    dsimp only
    split
    · exact .ret _
    refine (op_spares rfl).check (fun _ => .ret _) fun _ => (connectRDMA_spares _ _ _ _ _).bind fun connected => ?_
    rcases connected with ⟨connection, err⟩ | connection
    · exact hfailed connection true _
    · exact stageConnected_spares polls rounds stage connection true

theorem nodeUnstageVolume_spares (rounds : ℕ) (req : NodeUnstageRequest) :
    (nodeUnstageVolume rounds req).Keeps disks (Spared w0) := by
  unfold nodeUnstageVolume
  split
  · exact .ret _
  split
  · exact .ret _
  refine (unmount_spares .request _ rounds).check (fun _ => .ret _) fun _ => ?_
  split
  · exact .ret _
  · exact (disconnectRDMA_spares .request _).check (fun _ => .ret _) fun _ => .ret _

/-- A request to stage or to unstage a volume. -/
def serveNode (polls rounds : ℕ) (nodeID : Str) : NodeStageRequest ⊕ NodeUnstageRequest → HostProc (Except Status Unit)
  | .inl req => nodeStageVolume polls rounds nodeID req
  | .inr req => nodeUnstageVolume rounds req

/-- **No filesystem is ever formatted**, by no sequence of requests, wherever each of them is cut off. -/
theorem never_reformatted (polls rounds : ℕ) (nodeID : Str) (w w' : Disks)
    (h : Session (fun _ => disks) (serveNode polls rounds nodeID) w w') : Spared w w' := by
  refine h.inv (fun req s hs => ?_) fun _ _ h => h
  have hkeeps : (serveNode polls rounds nodeID req).Keeps disks (Spared w) := by
    rcases req with req | req
    · show (nodeStageVolume polls rounds nodeID req).Keeps disks (Spared w)
      unfold nodeStageVolume
      split
      · exact .ret _
      · exact stageVolume_spares polls rounds _
    · exact nodeUnstageVolume_spares rounds req
  exact (hkeeps s hs).mono fun _ _ _ _ => trivial

end keeps

section run

attribute [local instance] asciiLib

/-- One volume has a filesystem; the device leads to another one, which has none. -/
def oneBlank : Disks where
  device source := if source = str "/dev/nvme0n1" then some (str "b") else none
  filesystem volume := if volume = str "a" then some (str "xfs") else none

/-- The volume is connected already, and nothing is mounted. -/
def serveDisks : (c : HostCall) → Disks → Option (c.Resp × Disks)
  | .stat _, w | .mkdirAll _, w => some (.ok (), w)
  | .nvmeListSubsys _, w => some (.ok (.ok [⟨[⟨"q", [⟨"nvme0", "live"⟩]⟩]⟩]), w)
  | .readMountInfo, w => some (.ok [], w)
  | .blkid _ source, w => if (w.device source).bind w.filesystem = none then some (.ok [], w) else none
  | .mkfs _ _ args, w =>
    some (.ok (), ⟨w.device, fun volume =>
      if args.getLast?.bind w.device = some volume then some (str "ext4") else w.filesystem volume⟩)
  | _, _ => none

theorem serveDisks_disks (c : HostCall) (w : Disks) (a : c.Resp × Disks) (h : serveDisks c w = some a) :
    disks c w a.1 a.2 := by
  cases c with
  | stat | mkdirAll | nvmeListSubsys | readMountInfo =>
    cases h
    rfl
  | blkid ctx source =>
    obtain ⟨hnone, h⟩ := Option.ite_none_right_eq_some.1 h
    cases h
    exact ⟨rfl, fun _ => hnone⟩
  | mkfs ctx command args =>
    cases h
    intro volume
    by_cases hvolume : args.getLast?.bind w.device = some volume
    · exact .inr hvolume
    · exact .inl (if_neg hvolume)
  | _ => cases h

/-- Staging formats the volume without a filesystem, and is cut off then; the other volume is as before. -/
theorem never_reformatted_blank : ∃ w', Session (fun _ => disks) (serveNode 0 1 "n1") oneBlank w' ∧
    w'.filesystem (str "b") = some (str "ext4") ∧ w'.filesystem (str "a") = some (str "xfs") := by
  let p : HostProc (Except Status Unit) := serveNode 0 1 "n1" (.inl staged)
  have hrun := reaches_of_exec (S := disks) (fun (_ : Unit) => serveDisks_disks) (List.replicate 9 ()) p oneBlank
  have hsession : Session (fun _ => disks) (serveNode 0 1 "n1") oneBlank _ := .step (.inl staged) (.refl oneBlank) hrun
  refine ⟨_, hsession, ?_, never_reformatted 0 1 "n1" oneBlank _ hsession (str "a") (str "xfs") rfl⟩
  decide +kernel

end run

end Distort.Csi
