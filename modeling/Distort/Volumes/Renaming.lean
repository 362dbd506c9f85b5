import Distort.Agent.PartitionManager
import Distort.Lib.Store
import Distort.Target.Export
import Distort.Volumes.Parted

/-!
The deletion of a volume of the kernel backend, when its drive may have got another name since it was carved.

What addresses the volume is the path of its partition, and this has the name of the drive in it.

* `World` — the objects in the API server, the target of the node, and the partition table of the drive;
* `path_of_number` — a path gives a number under one device only;
* `deleteVolume_renamed` — under another name the volume manager refuses the path;
* `deletion_iff_not_renamed` — a deletion pass without a failure removes the partition and the finalizer if and only if
  no path was recorded, or the drive has the name that it had.
-/

namespace Distort.Volumes.Renaming

open Go Lib Lib.Kube Lib.Prog Api Agent Agent.Parted Proc Nvmet

/-! ### The path of a partition -/

/-- The path of a drive with the name. -/
def namespacePathOf (name : Str) : Str := str "/dev/" ++ name ++ str "n1"

theorem namespacePathOf_inj {name name' : Str} (h : namespacePathOf name = namespacePathOf name') : name = name' :=
  List.append_cancel_left (List.append_cancel_right h)

/-- A list is split at its last `a` in one way. -/
theorem append_cons_inj_of_not_mem {α : Type} {a : α} {x x' z z' : List α} (h : x ++ a :: z = x' ++ a :: z')
    (hz : a ∉ z) (hz' : a ∉ z') : x = x' := by
  rcases List.append_eq_append_iff.1 h with ⟨y, rfl, hy⟩ | ⟨y, rfl, hy⟩
  · cases y with
    | nil => simp
    | cons b y =>
      obtain ⟨-, rfl⟩ := List.cons.inj hy
      simp at hz
  · cases y with
    | nil => simp
    | cons b y =>
      obtain ⟨-, rfl⟩ := List.cons.inj hy
      simp at hz'

theorem not_mem_of_parseInt {s : Str} {n : ℤ} (h : parseInt s = some n) : (112 : UInt8) ∉ s := by
  have hdigits : ∀ {l : Str}, ¬(l = [] ∨ l.all digit = false) → (112 : UInt8) ∉ l := by
    intro l hl hmem
    have hall : l.all digit = true := by
      simp only [not_or, Bool.not_eq_false] at hl
      exact hl.2
    exact absurd (List.all_eq_true.1 hall 112 hmem) (by decide)
  unfold parseInt at h
  split at h
  · dsimp only at h
    simpa using hdigits (Option.ite_none_left_eq_some.1 h).1
  · dsimp only at h
    simpa using hdigits (Option.ite_none_left_eq_some.1 h).1
  · dsimp only at h
    exact hdigits (Option.ite_none_left_eq_some.1 h).1

theorem path_of_number {devicePath devicePath' : Str} {number number' : ℤ} (hn : 0 ≤ number)
    (h : partitionNumberFromPath devicePath' (partitionPath devicePath number) = .ok number') : devicePath' = devicePath := by
  unfold partitionNumberFromPath at h
  split at h
  · cases h
  rename_i rest hcut
  split at h
  · rename_i n hparse
    have hrest : partitionPath devicePath number = devicePath' ++ str "p" ++ rest := by
      unfold cutPrefix at hcut
      split at hcut
      · rename_i hpre
        obtain ⟨tail, htail⟩ := List.isPrefixOf_iff_prefix.1 hpre
        rw [← htail, List.drop_left] at hcut
        rw [← htail, (Prod.mk.inj hcut).1]
      · cases hcut
    have hsplit : devicePath ++ 112 :: itoa number = devicePath' ++ 112 :: rest := by
      rw [partitionPath, List.append_assoc, List.append_assoc] at hrest
      exact hrest
    refine (append_cons_inj_of_not_mem hsplit (fun hmem => ?_) (not_mem_of_parseInt hparse)).symm
    exact absurd (itoa_digits hn 112 hmem) (by decide)
  · cases h

section refused

variable [StdLib] [StdLib.Lawful] {drive : Drive} {requested : ℤ} {choose : Call → Table → Choice} {slots : List Slot}

/-- **The path of another device is refused.** -/
theorem deleteVolume_renamed (hcalm : Calm drive choose) (h : Sound drive slots) (deviceName volumeName : Str)
    {identity : VolumeIdentity} {devicePath : Str} {number : ℤ} (hn : 0 ≤ number)
    (hid : identity.backendVolumeID = partitionPath devicePath number) (hne : drive.path ≠ devicePath) :
    Yields (calmly drive requested choose) (fun r t => ∃ err, r = .error err ∧ t = some slots)
      (deleteVolume drive.path deviceName volumeName identity) (some slots) := by
  have hsome : identity.backendVolumeID ≠ [] := by
    rw [hid]
    exact List.append_ne_nil_of_right_ne_nil _ (itoa_ne_nil' hn)
  refine withLock_yields _ (.check ((readPartedTable_yields hcalm h false).mono ?_))
  rintro r t ⟨table, rfl, rfl, -⟩
  refine ⟨table, rfl, ?_⟩
  rw [if_pos hsome, hid]
  cases hnumber : partitionNumberFromPath drive.path (partitionPath devicePath number) with
  | error err => exact .ret ⟨err, rfl, rfl⟩
  | ok n => exact absurd (path_of_number hn hnumber) hne

end refused

/-! ### The node and its cluster -/

/-- The objects that a deletion looks up, apart from the attachments. -/
structure Registry where
  partitions : Store NVMePartitionSpec NVMePartitionStatus
  claims : Store NVMeDeviceClaimSpec NVMeDeviceClaimStatus
  devices : Store NVMeDeviceSpec NVMeDeviceStatus

structure World where
  registry : Registry
  attachments : Store NVMeVolumeAttachmentSpec NVMeVolumeAttachmentStatus
  target : Target
  table : Table

namespace World

def ofRegistry : Part World Registry where
  get := registry
  put r w := { w with registry := r }
  get_put _ _ := rfl
  put_put _ _ _ := rfl
  put_get _ := rfl

def ofAttachments : Part World (Store NVMeVolumeAttachmentSpec NVMeVolumeAttachmentStatus) where
  get := attachments
  put a w := { w with attachments := a }
  get_put _ _ := rfl
  put_put _ _ _ := rfl
  put_get _ := rfl

def ofTarget : Part World Target where
  get := target
  put t w := { w with target := t }
  get_put _ _ := rfl
  put_put _ _ _ := rfl
  put_get _ := rfl

def ofTable : Part World Table where
  get := table
  put t w := { w with table := t }
  get_put _ _ := rfl
  put_put _ _ _ := rfl
  put_get _ := rfl

end World

/-- The requests for partitions, claims and devices; a read shows what is stored. -/
def Registry.serve : (c : Call) → Registry → Option (c.Resp × Registry)
  | .api (.get .partition _ key), w => some (found (w.partitions.find key), w)
  | .api (.get .claim _ key), w => some (found (w.claims.find key), w)
  | .api (.get .device _ key), w => some (found (w.devices.find key), w)
  | .api (.list .partition _), w => some (.ok w.partitions.objects, w)
  | .api (.list .device _), w => some (.ok w.devices.objects, w)
  | .api (.patch .partition base obj), w =>
    some ((w.partitions.patch base obj).1, { w with partitions := (w.partitions.patch base obj).2 })
  | .api (.patchStatus .device base obj), w =>
    let r := w.devices.patchStatus NVMeDeviceStatus.merge base obj
    some (r.1, { w with devices := r.2 })
  | _, _ => none

/-- The requests for attachments. -/
def serveAttachments : (c : Call) → Store NVMeVolumeAttachmentSpec NVMeVolumeAttachmentStatus →
    Option (c.Resp × Store NVMeVolumeAttachmentSpec NVMeVolumeAttachmentStatus)
  | .api (.get .attachment _ key), s => some (found (s.find key), s)
  | .api (.patch .attachment base obj), s => some (s.patch base obj)
  | .api (.delete .attachment obj), s => some (s.delete obj.key)
  | _, _ => none

section world

variable [StdLib] (drive : Drive) (choose : Call → Table → Choice) (hardware : List HardwareNVMe)

open World

/-- A pass in which nothing fails; discovery reports the given drives. -/
def serve : (c : Call) → World → Option (c.Resp × World)
  | .node .discoverNVMe, w => some (.ok hardware, w)
  | .node c, w => ofTarget.over calm (.node c) w
  | .fs c, w => ofTarget.over calm (.fs c) w
  | .proc .ctxErr, w => ofTarget.over calm (.proc .ctxErr) w
  | .proc c, w => ofTable.over (calmly drive 0 choose) (.proc c) w
  | .disk c, w => ofTable.over (calmly drive 0 choose) (.disk c) w
  | .api c, w => (ofAttachments.over serveAttachments (.api c) w).or (ofRegistry.over Registry.serve (.api c) w)
  | _, _ => none

theorem serve_target (c : Call) (w : World) (r : c.Resp) (t : Target) (h : calm c w.target = some (r, t)) :
    serve drive choose hardware c w = some (r, ofTarget.put t w) := by
  have hover := ofTarget.over_eq_some calm (w := w) h
  cases c with
  | fs c => exact hover
  | node c =>
    cases c with
    | discoverNVMe => cases h
    | _ => exact hover
  | proc c =>
    cases c with
    | ctxErr => exact hover
    | _ => cases h
  | _ => cases h

theorem serve_table (c : Call) (w : World) (r : c.Resp) (t : Table)
    (h : calmly drive 0 choose c w.table = some (r, t)) : serve drive choose hardware c w = some (r, ofTable.put t w) := by
  have hover := ofTable.over_eq_some (calmly drive 0 choose) (w := w) h
  cases c with
  | disk c => exact hover
  | proc c =>
    cases c with
    | ctxErr => cases h
    | _ => exact hover
  | _ => cases h

theorem serve_attachments (c : Call) (w : World) (r : c.Resp)
    (s : Store NVMeVolumeAttachmentSpec NVMeVolumeAttachmentStatus) (h : serveAttachments c w.attachments = some (r, s)) :
    serve drive choose hardware c w = some (r, ofAttachments.put s w) := by
  have hover := ofAttachments.over_eq_some serveAttachments (w := w) h
  cases c with
  | api c =>
    rw [serve, hover]
    rfl
  | _ => cases h

theorem serve_registry (c : Call) (w : World) (r : c.Resp) (s : Registry) (h : Registry.serve c w.registry = some (r, s)) :
    serve drive choose hardware c w = some (r, ofRegistry.put s w) := by
  have hover := ofRegistry.over_eq_some Registry.serve (w := w) h
  cases c with
  | api c =>
    have hnone : serveAttachments (.api c) w.attachments = none := by
      cases c with
      | get kind via key =>
        cases kind with
        | attachment => cases h
        | _ => rfl
      | patch kind base obj =>
        cases kind with
        | attachment => cases h
        | _ => rfl
      | delete kind obj => cases h
      | _ => rfl
    rw [serve, Part.over, show serveAttachments (.api c) (ofAttachments.get w) = none from hnone, hover]
    rfl
  | _ => cases h

end world

/-! ### The requests of a pass -/

section attachments

variable {s : Store NVMeVolumeAttachmentSpec NVMeVolumeAttachmentStatus}

theorem releaseFinalizer_yields {a : NVMeVolumeAttachment} (h : s.find a.key = some a) :
    Yields serveAttachments (fun r _ => r = .ok ()) (releaseFinalizer a) s := by
  unfold releaseFinalizer
  split
  · have hpatch := congrArg some (Store.patch_removeFinalizer h Attachment.finalizer)
    exact .check (.op (Call.api (.patch .attachment a (a.removeFinalizer Attachment.finalizer))) hpatch ⟨_, rfl, .ret rfl⟩)
  · exact .ret rfl

theorem find_of_get {a : NVMeVolumeAttachment} {key : Key} (h : s.find key = some a) : s.find a.key = some a := by
  rw [(Store.mem_of_find h).2]
  exact h

theorem releaseAttachmentAfterUnexport_yields [StdLib] (partition : NVMePartition) :
    Yields serveAttachments (fun r _ => r = .ok ()) (releaseAttachmentAfterUnexport partition) s := by
  have hlook : Yields serveAttachments
      (fun r t => ∃ found, r = .ok found ∧ t = s ∧ ∀ a, found = some a → s.find a.key = some a)
      (attachmentForPartition partition) s := by
    let key : Key := ⟨partition.metadata.ns, Attachment.name partition.metadata.uid⟩
    cases hfind : s.find key with
    | none =>
      refine .check_error (.op (Call.api (.get .attachment .cache key)) rfl ⟨notFound, congrArg found hfind, ?_⟩)
      exact .ret ⟨none, rfl, rfl, nofun⟩
    | some a =>
      refine .check (.op (Call.api (.get .attachment .cache key)) rfl ⟨a, congrArg found hfind, ?_⟩)
      refine .ret ⟨some a, rfl, rfl, ?_⟩
      rintro _ ⟨⟩
      exact find_of_get hfind
  refine .check (hlook.mono ?_)
  rintro _ t ⟨attachment, rfl, ht, hstored⟩
  refine ⟨attachment, rfl, ?_⟩
  subst ht
  cases attachment with
  | none => exact .ret rfl
  | some a =>
    have hfind := hstored a rfl
    dsimp only
    split
    · exact releaseFinalizer_yields hfind
    -- a live attachment is deleted first, and what the deletion leaves is released
    have hdelete : t.delete a.key = (.ok (), t.put a.key (a.delete.map t.stamp)) := by
      rw [Store.delete, hfind]
    refine .check (.check (.op (Call.api (.delete .attachment a)) (congrArg some hdelete) ⟨(), rfl, .ret ⟨(), rfl, ?_⟩⟩))
    generalize t.put a.key (a.delete.map t.stamp) = s'
    cases hleft : s'.find a.key with
    | none =>
      exact .check_error (.op (Call.api (.get .attachment .cache a.key)) rfl ⟨notFound, congrArg found hleft, .ret rfl⟩)
    | some latest =>
      refine .check (.op (Call.api (.get .attachment .cache a.key)) rfl ⟨latest, congrArg found hleft, ?_⟩)
      exact releaseFinalizer_yields (find_of_get hleft)

end attachments

section registry

variable {reg : Registry} {p : NVMePartition}

/-- Nothing is left to do for the device of the partition, or its object can be found. -/
def Registry.Clears [StdLib] (reg : Registry) (nodeName : Str) (p : NVMePartition) : Prop :=
  reg.partitions.objects.any (sharesDevice p) = true ∨
    ∃ deviceName device, run Registry.serve (assignedDeviceName nodeName p) reg = some (.ok deviceName, reg) ∧
      reg.devices.find ⟨[], deviceName⟩ = some device

theorem clearInactiveBackend_yields [StdLib] {nodeName : Str} (h : reg.Clears nodeName p) :
    Yields Registry.serve (fun r t => r = .ok () ∧ t.partitions = reg.partitions)
      (clearInactiveBackend nodeName p "kernel") reg := by
  have hkernel : str "kernel" ≠ spdkTargetBackend := by decide
  unfold clearInactiveBackend
  rw [if_neg hkernel]
  refine .check (.op (Call.api (.list .partition .cache)) rfl ⟨_, rfl, ?_⟩)
  split
  · exact .ret ⟨rfl, rfl⟩
  rename_i hshares
  rcases h with h | ⟨deviceName, device, hrun, hdevice⟩
  · exact absurd h hshares
  refine .check ⟨_, _, hrun, deviceName, rfl, ?_⟩
  have hget : Registry.serve (.api (.get .device .cache ⟨[], deviceName⟩)) reg = some (.ok device, reg) := by
    rw [Registry.serve, hdevice]
    rfl
  have hkey : device.key = ⟨[], deviceName⟩ := (Store.mem_of_find hdevice).2
  refine .check (.op (Call.api (.get .device .cache ⟨[], deviceName⟩)) hget ⟨device, rfl, ?_⟩)
  let cleared : NVMeDevice := { device with status := { device.status with activeBackend := [] } }
  have hpatch : Registry.serve (.api (.patchStatus .device device cleared)) reg =
    some ((reg.devices.patchStatus NVMeDeviceStatus.merge device cleared).1,
      { reg with devices := (reg.devices.patchStatus NVMeDeviceStatus.merge device cleared).2 }) := rfl
  rcases Store.patchStatus_cases (s := reg.devices) NVMeDeviceStatus.merge device cleared with
    ⟨hnone, -⟩ | ⟨stored, -, heq⟩
  · have hfind : reg.devices.find cleared.key = some device := by
      rw [← hdevice, ← hkey]
      rfl
    exact nomatch hfind.symm.trans hnone
  · rw [heq] at hpatch
    exact .check (.op (Call.api (.patchStatus .device device cleared)) hpatch ⟨_, rfl, .ret ⟨rfl, rfl⟩⟩)

theorem removePartitionFinalizer_yields (h : reg.partitions.find p.key = some p) :
    Yields Registry.serve (fun r t => r = .ok 0 ∧
        ∀ o ∈ t.partitions.objects, o.key = p.key → o.containsFinalizer partitionFinalizer = false)
      (removePartitionFinalizer p.key) reg := by
  have hget : Registry.serve (.api (.get .partition .cache p.key)) reg = some (.ok p, reg) := by
    rw [Registry.serve, h]
    rfl
  refine .check (.op (Call.api (.get .partition .cache p.key)) hget ⟨p, rfl, ?_⟩)
  have hpatch : Registry.serve (.api (.patch .partition p (p.removeFinalizer partitionFinalizer))) reg =
    some ((reg.partitions.patch p (p.removeFinalizer partitionFinalizer)).1,
      { reg with partitions := (reg.partitions.patch p (p.removeFinalizer partitionFinalizer)).2 }) := rfl
  rw [Store.patch_removeFinalizer h] at hpatch
  refine .check (.op (Call.api (.patch .partition p (p.removeFinalizer partitionFinalizer))) hpatch ⟨_, rfl, .ret ⟨rfl, ?_⟩⟩)
  intro o ho hkey
  rcases Store.mem_put.1 ho with ⟨-, hne⟩ | ⟨hsettle, -⟩
  · exact absurd hkey hne
  · rw [settle_eq_some hsettle]
    simp [Object.containsFinalizer, Store.stamp, Object.removeFinalizer, Object.setFinalizers]

end registry

/-! ### A deletion pass -/

/-- What `resolvePartitionPlugins` gives for the kernel backend. -/
def kernelPlugins [StdLib] : ResolvedPartitionPlugins := ⟨"kernel", "parted", Kernel.backend, Parted.volumeManager⟩

/-- The target that the pass takes away. -/
def nqnOf [StdLib] (p : NVMePartition) (externalID : Str) : Str :=
  if p.status.nqn = [] then Distort.VolumeIdentity.nqn externalID else p.status.nqn

/-- A partition that was carved as `s` on the drive `before`, and the pass that finds the drive as `after` by its serial
number.  Apart from the path that may be recorded for the volume nothing stands in the way of the pass. -/
structure Doomed [StdLib] (nodeName externalID : Str) (before after : Drive) (hardware : List HardwareNVMe)
    (device : HardwareNVMe) (p : NVMePartition) (slots : List Slot) (s : Slot) (w : World) : Prop where
  finalizer : p.containsFinalizer partitionFinalizer = true
  stored : w.registry.partitions.find p.key = some p
  placed : p.spec.parentDeviceSerialNumber ≠ []
  discovered : (hardware.find? fun d => equalFold d.serialNumber p.spec.parentDeviceSerialNumber) = some device
  path : after.path = namespacePathOf device.name
  recorded : p.status.backendVolumeID = [] ∨ p.status.backendVolumeID = (identityOf before s).backendVolumeID
  removable : Removable (nqnOf p externalID) w.target
  clears : w.registry.Clears nodeName p
  table : w.table = some slots
  sound : Sound after slots
  carved : s ∈ slots
  name : s.name = externalID

/-- The pass takes exactly the partition `s` off the drive; then it takes the finalizer off, and ends without an error. -/
def Completes [StdLib] (drive : Drive) (choose : Call → Table → Choice) (hardware : List HardwareNVMe) (nodeName externalID : Str)
    (p : NVMePartition) (slots : List Slot) (s : Slot) (w : World) : Prop :=
  ∃ w₁ w₂, Reaches (.always (serve drive choose hardware))
      (reconcilePartitionDeletion nodeName p.key p kernelPlugins externalID) w (removePartitionFinalizer p.key) w₁ ∧
    w₁.table = some (slots.filter fun x => x ≠ s) ∧ w₁.registry.partitions = w.registry.partitions ∧
    run (serve drive choose hardware) (removePartitionFinalizer p.key) w₁ = some (.ok 0, w₂) ∧ w₂.table = w₁.table ∧
    ∀ o ∈ w₂.registry.partitions.objects, o.key = p.key → o.containsFinalizer partitionFinalizer = false

section pass

variable [StdLib] {nodeName externalID : Str} {before after : Drive} {choose : Call → Table → Choice}
  {hardware : List HardwareNVMe} {device : HardwareNVMe} {p : NVMePartition} {slots : List Slot} {s : Slot} {w : World}

open World

/-- First the target is taken away and the attachment released, and all else stays. -/
theorem Doomed.unexports [StdLib.Lawful] (h : Doomed nodeName externalID before after hardware device p slots s w)
    (choose : Call → Table → Choice) : ∃ w', Reaches (.always (serve after choose hardware))
        (reconcilePartitionDeletion nodeName p.key p kernelPlugins externalID) w
        ((deleteBackendVolume nodeName p kernelPlugins externalID).check fail fun _ => removePartitionFinalizer p.key) w' ∧
      w'.registry = w.registry ∧ w'.table = w.table := by
  have hpass : reconcilePartitionDeletion nodeName p.key p kernelPlugins externalID =
      (Kernel.unexportVolume (nqnOf p externalID)).check fail fun _ =>
        (releaseAttachmentAfterUnexport p).check fail fun _ =>
        (deleteBackendVolume nodeName p kernelPlugins externalID).check fail fun _ => removePartitionFinalizer p.key := by
    unfold reconcilePartitionDeletion
    rw [h.finalizer]
    rfl
  obtain ⟨_, w1, hrun1, t, rfl, hcases⟩ := (unexportVolume_yields (nqnOf p externalID) w.target).part ofTarget
    (serve_target after choose hardware)
  obtain ⟨rfl, -⟩ := hcases.resolve_right fun hfailed => hfailed.2 h.removable
  obtain ⟨_, w2, hrun2, a, rfl, rfl⟩ := (releaseAttachmentAfterUnexport_yields p).part ofAttachments (w := ofTarget.put t w)
    (serve_attachments after choose hardware)
  rw [hpass]
  exact ⟨_, (reaches_of_run hrun1).trans (reaches_of_run hrun2), rfl, rfl⟩

theorem Doomed.finds (h : Doomed nodeName externalID before after hardware device p slots s w) {w' : World}
    {Q : Except Err Unit → World → Prop} {K : Except Err Unit → Table → Prop}
    (hdelete : Yields (calmly after 0 choose) K
      (deleteVolume after.path device.name externalID (backendVolumeIdentity p.status)) w'.table)
    (hok : ∀ t, K (.ok ()) t → Yields (serve after choose hardware) Q (clearInactiveBackend nodeName p "kernel")
      { w' with table := t }) (herr : ∀ err t, K (.error err) t → Q (.error err) { w' with table := t }) :
    Yields (serve after choose hardware) Q (deleteBackendVolume nodeName p kernelPlugins externalID) w' := by
  have hkernel : str "kernel" ≠ spdkTargetBackend := by decide
  have hlift := hdelete.part ofTable (serve_table after choose hardware)
  rw [h.path] at hlift
  unfold deleteBackendVolume
  rw [if_pos h.placed]
  refine .check (m := resolveDeletionDevice nodeName p "kernel") ?_
  unfold resolveDeletionDevice
  rw [if_neg hkernel]
  refine .check (.op (Call.node .discoverNVMe) rfl ⟨hardware, rfl, ?_⟩)
  rw [h.discovered]
  refine .ret ⟨_, rfl, .bind (hlift.mono ?_)⟩
  rintro r _ ⟨t, rfl, hr⟩
  cases r with
  | ok u => exact hok t hr
  | error err => exact .ret (herr err t hr)

/-- What is recorded leads to the partition if the drive is called as before, or if nothing is recorded. -/
theorem Doomed.targets (h : Doomed nodeName externalID before after hardware device p slots s w)
    (hname : p.status.backendVolumeID = [] ∨ after.path = before.path) :
    targets after s.name (backendVolumeIdentity p.status) s = true := by
  obtain ⟨h0, h1⟩ := h.sound.number_range s h.carved
  refine decide_eq_true ⟨rfl, fun hne => ?_⟩
  have hid : (backendVolumeIdentity p.status).backendVolumeID = partitionPath after.path s.number := by
    rw [hname.resolve_left hne]
    exact h.recorded.resolve_left hne
  rw [hid, partitionNumberFromPath_path after h0 h1]
  rfl

variable [StdLib.Lawful]

theorem Doomed.completes (h : Doomed nodeName externalID before after hardware device p slots s w) (hcalm : Calm after choose)
    (hname : p.status.backendVolumeID = [] ∨ after.path = before.path) :
    Completes after choose hardware nodeName externalID p slots s w := by
  obtain ⟨w1, hreach1, hreg1, htable1⟩ := h.unexports choose
  have hdelete : Yields (calmly after 0 choose) (fun r t => r = .ok () ∧ t = some (without slots s))
      (deleteVolume after.path device.name externalID (backendVolumeIdentity p.status)) w1.table := by
    rw [htable1, h.table, ← h.name]
    exact deleteVolume_yields hcalm h.sound h.carved device.name (h.targets hname)
  have hclear : ∀ t, .ok () = (.ok () : Except Err Unit) ∧ t = some (without slots s) →
      Yields (serve after choose hardware) (fun r w2 => r = .ok () ∧ w2.table = some (without slots s) ∧
        w2.registry.partitions = w.registry.partitions) (clearInactiveBackend nodeName p "kernel") { w1 with table := t } := by
    rintro _ ⟨-, rfl⟩
    have hclears : w1.registry.Clears nodeName p := hreg1 ▸ h.clears
    refine ((clearInactiveBackend_yields hclears).part ofRegistry
      (w := { w1 with table := some (without slots s) }) (serve_registry after choose hardware)).mono ?_
    rintro _ _ ⟨reg, rfl, rfl, hparts⟩
    exact ⟨rfl, rfl, hreg1 ▸ hparts⟩
  obtain ⟨_, w2, hrun2, rfl, htable2, hparts2⟩ := h.finds hdelete hclear (by rintro err t ⟨⟨⟩, -⟩)
  have hstored : w2.registry.partitions.find p.key = some p := hparts2 ▸ h.stored
  obtain ⟨_, w3, hrun3, reg, rfl, rfl, hgone⟩ := (removePartitionFinalizer_yields hstored).part ofRegistry (w := w2)
    (serve_registry after choose hardware)
  refine ⟨w2, _, hreach1.trans (reaches_of_run hrun2), ?_, hparts2, hrun3, rfl, hgone⟩
  rw [htable2, h.sound.without_eq h.carved]

theorem Doomed.not_completes (h : Doomed nodeName externalID before after hardware device p slots s w)
    (hcalm : Calm after choose) (hsome : p.status.backendVolumeID ≠ []) (hne : after.path ≠ before.path) :
    ¬Completes after choose hardware nodeName externalID p slots s w := by
  obtain ⟨w1, hreach1, -, htable1⟩ := h.unexports choose
  have hn : 0 ≤ s.number := by
    have hrange := h.sound.number_range s h.carved
    omega
  have hdelete : Yields (calmly after 0 choose) (fun r t => ∃ err, r = .error err ∧ t = some slots)
      (deleteVolume after.path device.name externalID (backendVolumeIdentity p.status)) w1.table := by
    rw [htable1, h.table]
    exact deleteVolume_renamed hcalm h.sound device.name externalID hn (h.recorded.resolve_left hsome) hne
  obtain ⟨_, w2, hrun2, err, rfl⟩ := h.finds (Q := fun r _ => ∃ err, r = .error err) hdelete
    (by rintro t ⟨err, ⟨⟩, -⟩) fun err _ _ => ⟨err, rfl⟩
  -- the pass ends with the error, whatever it has been through
  have hfails : run (serve after choose hardware) (reconcilePartitionDeletion nodeName p.key p kernelPlugins externalID) w =
      some (.error err, w2) := by
    rw [hreach1.run_eq]
    exact run_bind hrun2
  rintro ⟨w3, w4, hreach, -, -, hrun, -⟩
  rw [hreach.run_eq, hrun] at hfails
  cases hfails

/-- **A deletion pass without a failure completes if and only if no path is recorded, or the drive is called as it was
when the volume was carved.** -/
theorem deletion_iff_not_renamed {oldName : Str} (hbefore : before.path = namespacePathOf oldName)
    (h : Doomed nodeName externalID before after hardware device p slots s w) (hcalm : Calm after choose) :
    Completes after choose hardware nodeName externalID p slots s w ↔
      p.status.backendVolumeID = [] ∨ device.name = oldName := by
  constructor
  · intro hcompletes
    by_contra hnot
    push Not at hnot
    refine h.not_completes hcalm hnot.1 (fun hpath => hnot.2 ?_) hcompletes
    exact namespacePathOf_inj (h.path.symm.trans (hpath.trans hbefore))
  · intro hname
    refine h.completes hcalm (hname.imp_right fun heq => ?_)
    rw [h.path, hbefore, heq]

end pass

section run

attribute [local instance] asciiLib

/-- The drive while it is `nvme0`, and once it is `nvme1`. -/
def drive0 : Drive :=
  { smallDrive with
    path := "/dev/nvme0n1"
    canonical := ⟨[str "dev", str "nvme0n1"], by decide, by decide, rfl⟩
    oneLine := by decide }

def drive1 : Drive :=
  { smallDrive with
    path := "/dev/nvme1n1"
    canonical := ⟨[str "dev", str "nvme1n1"], by decide, by decide, rfl⟩
    oneLine := by decide }

theorem sound_first : Sound smallDrive [firstSlot] := (reached_first.inv (body_holds smallDrive) .refl).sound

theorem sound_drive0 : Sound drive0 [firstSlot] := { sound_first with within := sound_first.within }

theorem sound_drive1 : Sound drive1 [firstSlot] := { sound_first with within := sound_first.within }

/-- A partition on the drive with the serial number `S1`. -/
def doomed (backendVolumeID : Str) : NVMePartition where
  metadata := { ns := "d", name := "p", uid := "u", deletionTimestamp := true, finalizers := [partitionFinalizer] }
  spec := {
    size := 1, nodeName := "n", parentDeviceSerialNumber := "S1", claimRef := some ⟨"d", "c", "uc"⟩, targetBackend := "kernel" }
  status := { externalID := "a", backendVolumeID }

def doomedWorld (backendVolumeID : Str) : World where
  registry := {
    partitions := ⟨[doomed backendVolumeID], 3⟩
    claims := ⟨[{
      metadata := { ns := "d", name := "c", uid := "uc" }
      spec := ⟨"S1"⟩
      status := { active := true, matchedDevice := "n-s1", nodeName := "n" } }], 3⟩
    devices := ⟨[{
      metadata := { ns := [], name := "n-s1" }
      spec := ⟨"n", "0000:01:00.0", "S1", 8388608⟩
      status := { state := .claimed, claimRef := some ⟨"d", "c", "uc"⟩, activeBackend := "kernel" } }], 3⟩ }
  attachments := ⟨[], 3⟩
  target := configured
  table := some [firstSlot]

def nvme (name : Str) : HardwareNVMe := ⟨name, "0000:01:00.0", "S1", 8388608⟩

theorem doomed_clears (id : Str) : (doomedWorld id).registry.Clears "n" (doomed id) :=
  .inr ⟨str "n-s1", _, rfl, rfl⟩

theorem doomed_recorded {after : Drive} {name : Str} (hpath : after.path = namespacePathOf name) (hsound : Sound after [firstSlot])
    (hfind : ([nvme name].find? fun d => equalFold d.serialNumber "S1") = some (nvme name)) :
    Doomed "n" "a" drive0 after [nvme name] (nvme name) (doomed "/dev/nvme0n1p1") [firstSlot] firstSlot
      (doomedWorld "/dev/nvme0n1p1") where
  finalizer := by decide
  stored := rfl
  placed := by decide
  discovered := hfind
  path := hpath
  recorded := .inr (by decide)
  removable := rfl
  clears := doomed_clears _
  table := rfl
  sound := hsound
  carved := List.mem_singleton_self _
  name := rfl

theorem deletion_iff_not_renamed_kept :
    Doomed "n" "a" drive0 drive0 [nvme "nvme0"] (nvme "nvme0") (doomed "/dev/nvme0n1p1") [firstSlot] firstSlot
        (doomedWorld "/dev/nvme0n1p1") ∧
      Completes drive0 (plainly drive0) [nvme "nvme0"] "n" "a" (doomed "/dev/nvme0n1p1") [firstSlot] firstSlot
        (doomedWorld "/dev/nvme0n1p1") := by
  have hpath : drive0.path = namespacePathOf (str "nvme0") := rfl
  have h := doomed_recorded hpath sound_drive0 rfl
  exact ⟨h, (deletion_iff_not_renamed hpath h (calm_plainly drive0)).2 (.inr rfl)⟩

/-- The same partition, after a restart in which its drive has become `nvme1`. -/
theorem renamed_not_deleted :
    Doomed "n" "a" drive0 drive1 [nvme "nvme1"] (nvme "nvme1") (doomed "/dev/nvme0n1p1") [firstSlot] firstSlot
        (doomedWorld "/dev/nvme0n1p1") ∧ Calm drive1 (plainly drive1) ∧
      ¬Completes drive1 (plainly drive1) [nvme "nvme1"] "n" "a" (doomed "/dev/nvme0n1p1") [firstSlot] firstSlot
        (doomedWorld "/dev/nvme0n1p1") := by
  have hpath : drive1.path = namespacePathOf (str "nvme1") := rfl
  have h := doomed_recorded hpath sound_drive1 rfl
  exact ⟨h, calm_plainly drive1, h.not_completes (calm_plainly drive1) (by decide) (by decide)⟩

end run

end Distort.Volumes.Renaming
