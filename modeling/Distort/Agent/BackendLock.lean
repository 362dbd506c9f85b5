import Distort.Agent.BackendKernel
import Distort.Agent.PartitionManager
import Distort.Agent.SpdkLvol
import Distort.Lib.Machine
import Distort.Lib.Store
import Distort.Manager.Placement

/-!
A device is locked to the kernel backend while it holds a kernel volume, unless a deletion overlooks one.

One agent, whose passes run one after the other with fresh reads, on the partitions of one device.  Others
create partitions, place them where `deviceCanHostPartition` allows it, delete them, and report the device.
The steps of the two backends that matter are told apart: `SetupDevice` of the SPDK backend and the methods
of the partition-table manager are single steps, while `SetupDevice` of the kernel backend and the
logical-volume manager are the programs that they are.

* `locked_while_carved` — if each kernel volume that is left when a deletion pass looks for other partitions of
  the device belongs to a partition that is not marked for deletion, then a device with a kernel volume is
  locked to the kernel backend, and the SPDK backend never sets it up;
* `set_up_while_carved` — a deletion pass overlooks the volume of a partition that is marked for deletion too.
-/

namespace Distort.Agent.BackendLock

open Go Lib Lib.Kube Api Proc

/-! ### The state -/

structure World where
  partitions : Store NVMePartitionSpec NVMePartitionStatus
  device : NVMeDevice
  /-- The names of the kernel volumes on the device. -/
  volumes : List Str

/-- The node of the agent and the serial number of the device. -/
structure Setting where
  nodeName : Str
  serial : Str

/-- What others do. -/
inductive Change where
  /-- A partition is created without a placement. -/
  | create (uid : Str) (obj : NVMePartition)
  | place (key : Key) (ref : ClaimRef)
  | delete (key : Key)
  /-- A write on the status of a partition. -/
  | write (obj : NVMePartition)
  /-- A report of the device; the lock is not its business. -/
  | report (obj : NVMeDevice)

structure Choice where
  fate : Fate := .ok
  /-- What a new volume is called. -/
  identity : VolumeIdentity := {}
  /-- The answer to a call that the state says nothing about. -/
  reply : (c : Call) → Option c.Resp := fun _ => none
  change : Change := .delete ⟨[], []⟩

namespace World

/-- The backend that the device is locked to. -/
def lock (w : World) : Str := w.device.status.activeBackend

def setPartitions {α : Type} (w : World) (r : Except Err α × Store NVMePartitionSpec NVMePartitionStatus) :
    Except Err α × World :=
  (r.1, { w with partitions := r.2 })

def getDevice (key : Key) (w : World) : Except Err NVMeDevice :=
  if key = w.device.key then .ok w.device else .error notFound

def patchDevice (base obj : NVMeDevice) (w : World) : Except Err NVMeDevice × World :=
  if obj.key = w.device.key then
    let device := { w.device with status := .merge base.status obj.status w.device.status }
    (.ok device, { w with device })
  else (.error notFound, w)

def createVolume (name : Str) (identity : VolumeIdentity) (w : World) : Except Err VolumeIdentity × World :=
  (.ok identity, { w with volumes := name :: w.volumes })

def deleteVolume (name : Str) (w : World) : Except Err Unit × World :=
  (.ok (), { w with volumes := w.volumes.filter fun v => v ≠ name })

/-- The placement of a partition by the manager. -/
def placed (w : World) (p : NVMePartition) (ref : ClaimRef) : NVMePartition :=
  w.partitions.updated p (Manager.withPlacement p w.device ref)

def change (w : World) : Change → Option World
  | .create uid obj =>
    if w.partitions.find obj.key = none ∧ obj.spec.nodeName = [] ∧ obj.spec.parentDeviceSerialNumber = [] ∧
        (obj.spec.volumeManager = [] ∨ obj.spec.volumeManager = str "partition") then
      some { w with partitions := (w.partitions.create uid ({} : NVMePartitionStatus) obj).2 }
    else none
  | .place key ref => (w.partitions.find key).bind fun p =>
      if p.spec.nodeName = [] ∧ Manager.deviceCanHostPartition w.device p = true then
        some { w with partitions := w.partitions.put key (w.placed p ref).settle }
      else none
  | .delete key => some { w with partitions := (w.partitions.delete key).2 }
  | .write obj => (w.partitions.find obj.key).map fun p =>
      { w with partitions := w.partitions.put obj.key (some (w.partitions.stamp { p with status := obj.status })) }
  | .report obj =>
    if obj.key = w.device.key ∧ obj.spec.nodeName = w.device.spec.nodeName ∧
        obj.spec.serialNumber = w.device.spec.serialNumber then
      some { w with device := { obj with status := { obj.status with activeBackend := w.lock } } }
    else none

end World

/-! ### The system -/

/-- The plugins of the agent. -/
def plugins [StdLib] : Plugins where
  backends := [.atomic "spdk", { TargetBackend.atomic "kernel" with setupDevice := Kernel.setupDevice }]
  volumeManagers := [SpdkLvol.manager, .atomic "parted"]

def answer (ch : Choice) : (c : Call) → World → Option (c.Resp × World)
  | .api (.get .partition _ key), w => ch.fate.answer w (found (w.partitions.find key), w)
  | .api (.list .partition _), w => ch.fate.answer w (.ok w.partitions.objects, w)
  | .api (.patchStatus .partition base obj), w =>
    ch.fate.answer w (w.setPartitions (w.partitions.patchStatus NVMePartitionStatus.merge base obj))
  | .api (.patch .partition base obj), w => ch.fate.answer w (w.setPartitions (w.partitions.patch base obj))
  | .api (.get .device _ key), w => ch.fate.answer w (w.getDevice key, w)
  | .api (.list .device _), w => ch.fate.answer w (.ok [w.device], w)
  | .api (.patchStatus .device base obj), w => ch.fate.answer w (w.patchDevice base obj)
  | .plugin (.createVolume _ _ name _), w => ch.fate.answer w (w.createVolume name ch.identity)
  | .plugin (.deleteVolume _ _ name _), w => ch.fate.answer w (w.deleteVolume name)
  | c, w => (ch.reply c).map fun r => (r, w)

def initial (s : Setting) (w : World) : Prop :=
  w.partitions.objects = [] ∧ w.device.spec.serialNumber = s.serial ∧ w.lock = [] ∧ w.volumes = []

/-- **The system of one agent and one device.**  A job is a pass for one partition. -/
def machine [StdLib] (s : Setting) : Machine Call Call.Resp World Key Choice (Except Err Result) where
  body := reconcile plugins s.nodeName
  answer ch _ := answer ch
  change ch w := w.change ch.change
  init := initial s
  together _ _ := false

/-- The volume is one of a partition of the device, other than this one, that is not marked for deletion. -/
def ofLive (key : Key) (w : World) (v : Str) : Bool :=
  w.partitions.objects.any fun q => q.key ≠ key && !q.metadata.deletionTimestamp &&
    q.spec.parentDeviceSerialNumber = w.device.spec.serialNumber && (identitiesForPartition q).1 = v

/-- When a deletion pass looks for other partitions, each kernel volume that is left is one of a live partition. -/
def overlooksNone (key : Key) (c : Call) (w : World) : Bool :=
  match c with
  | .api (.list .partition _) => w.volumes.all (ofLive key w)
  | _ => true

/-! ### Invariant -/

structure Inv (s : Setting) (w : World) : Prop where
  serial : w.device.spec.serialNumber = s.serial
  locked : w.volumes ≠ [] → w.lock = str "kernel"
  /-- What the schema admits as the volume manager. -/
  manager : ∀ p ∈ w.partitions.objects, p.spec.volumeManager = [] ∨ p.spec.volumeManager = str "partition"
  parent : ∀ p ∈ w.partitions.objects,
    p.spec.parentDeviceSerialNumber = [] ∨ p.spec.parentDeviceSerialNumber = s.serial

/-- What a pass counts on: nobody else touches the lock and the volumes. -/
structure Rely (w w' : World) : Prop where
  lock : w'.lock = w.lock
  volumes : w'.volumes = w.volumes
  key : w'.device.key = w.device.key

/-- What has to hold when a pass makes a call. -/
def Req (c : Call) (w : World) : Prop :=
  match c with
  | .api (.patchStatus .device _ _) => w.volumes = []
  | .plugin (.createVolume _ _ _ _) => w.lock = str "kernel"
  | .plugin (.setupDevice _ _ _) => w.volumes = []
  | _ => True

variable {s : Setting} {w w' : World}

theorem Rely.refl (w : World) : Rely w w := ⟨rfl, rfl, rfl⟩

theorem Rely.trans {w1 w2 w3 : World} (h : Rely w1 w2) (h' : Rely w2 w3) : Rely w1 w3 :=
  ⟨h'.lock.trans h.lock, h'.volumes.trans h.volumes, h'.key.trans h.key⟩

theorem Inv.empty (h : Inv s w) (hl : w.lock ≠ str "kernel") : w.volumes = [] :=
  not_not.1 fun hne => hl (h.locked hne)

theorem Inv.setPartitions (h : Inv s w) {t : Store NVMePartitionSpec NVMePartitionStatus}
    (ht : ∀ p ∈ t.objects, ∃ q ∈ w.partitions.objects, p.spec.volumeManager = q.spec.volumeManager ∧
      (p.spec.parentDeviceSerialNumber = q.spec.parentDeviceSerialNumber ∨ p.spec.parentDeviceSerialNumber = s.serial)) :
    Inv s { w with partitions := t } ∧ Rely w { w with partitions := t } := by
  refine ⟨⟨h.serial, h.locked, fun p hp => ?_, fun p hp => ?_⟩, rfl, rfl, rfl⟩
  · obtain ⟨q, hq, hmanager, -⟩ := ht p hp
    rw [hmanager]
    exact h.manager q hq
  · obtain ⟨q, hq, -, hsame | hserial⟩ := ht p hp
    · rw [hsame]
      exact h.parent q hq
    · exact .inr hserial

theorem Inv.putPartition (h : Inv s w) {key : Key} {p : NVMePartition} {v : Option NVMePartition}
    (hf : w.partitions.find key = some p) (hv : ∀ q, v = some q → q.spec = p.spec) :
    Inv s { w with partitions := w.partitions.put key v } ∧ Rely w { w with partitions := w.partitions.put key v } := by
  refine h.setPartitions fun q hq => ?_
  rcases Store.mem_put.1 hq with ⟨hold, -⟩ | ⟨hnew, -⟩
  · exact ⟨q, hold, rfl, .inl rfl⟩
  · exact ⟨p, (Store.mem_of_find hf).1, by rw [hv q hnew], .inl (by rw [hv q hnew])⟩

theorem Inv.patchPartitionStatus (h : Inv s w) (base obj : NVMePartition) :
    Inv s (w.setPartitions (w.partitions.patchStatus NVMePartitionStatus.merge base obj)).2 ∧
    Rely w (w.setPartitions (w.partitions.patchStatus NVMePartitionStatus.merge base obj)).2 := by
  unfold World.setPartitions
  rcases Store.patchStatus_cases (s := w.partitions) NVMePartitionStatus.merge base obj with ⟨-, heq⟩ | ⟨p, hf, heq⟩
  · rw [heq]
    exact ⟨h, .refl w⟩
  · rw [heq]
    exact h.putPartition hf (by rintro q ⟨⟩; rfl)

theorem Inv.patchPartition (h : Inv s w) (base obj : NVMePartition) :
    Inv s (w.setPartitions (w.partitions.patch base obj)).2 ∧
    Rely w (w.setPartitions (w.partitions.patch base obj)).2 := by
  unfold World.setPartitions
  rcases Store.patch_cases (s := w.partitions) base obj with ⟨err, heq⟩ | ⟨p, hf, heq⟩
  · rw [heq]
    exact ⟨h, .refl w⟩
  · rw [heq]
    exact h.putPartition hf fun q hq => by rw [settle_eq_some hq]; rfl

/-- **Whatever others do leaves the lock and the volumes alone.** -/
theorem Inv.change (h : Inv s w) {ch : Change} (hw : w.change ch = some w') : Inv s w' ∧ Rely w w' := by
  cases ch with
  | create uid obj =>
    simp only [World.change, Option.ite_none_right_eq_some, Option.some.injEq] at hw
    obtain ⟨⟨hf, -, hserial, hmanager⟩, rfl⟩ := hw
    have hmem : ∀ p ∈ (w.partitions.create uid ({} : NVMePartitionStatus) obj).2.objects,
        p ∈ w.partitions.objects ∨ p.spec = obj.spec := by
      intro p hp
      simp only [Store.create, hf] at hp
      rcases List.mem_append.1 hp with hold | hlast
      · exact .inl hold
      · obtain rfl := List.mem_singleton.1 hlast
        exact .inr rfl
    refine ⟨⟨h.serial, h.locked, fun p hp => ?_, fun p hp => ?_⟩, rfl, rfl, rfl⟩
    · rcases hmem p hp with hold | hspec
      · exact h.manager p hold
      · rw [hspec]
        exact hmanager
    · rcases hmem p hp with hold | hspec
      · exact h.parent p hold
      · rw [hspec]
        exact .inl hserial
  | place key ref =>
    obtain ⟨p, hf, hite⟩ := Option.bind_eq_some_iff.1 hw
    obtain ⟨-, rfl⟩ := (Option.ite_none_right_eq_some.1 hite).imp_right Option.some.inj
    refine h.setPartitions fun q hq => ?_
    rcases Store.mem_put.1 hq with ⟨hold, -⟩ | ⟨hnew, -⟩
    · exact ⟨q, hold, rfl, .inl rfl⟩
    · rw [settle_eq_some hnew]
      exact ⟨p, (Store.mem_of_find hf).1, rfl, .inr h.serial⟩
  | delete key =>
    cases hw
    rcases Store.delete_cases (s := w.partitions) key with ⟨-, heq⟩ | ⟨p, hf, heq⟩
    · rw [heq]
      exact ⟨h, .refl w⟩
    rw [heq]
    refine h.putPartition hf fun q hq => ?_
    obtain ⟨q0, hq0, rfl⟩ := Option.map_eq_some_iff.1 hq
    obtain ⟨-, -, -, -, -, -, hspec, -⟩ := delete_eq_some hq0
    exact hspec
  | write obj =>
    obtain ⟨p, hf, rfl⟩ := Option.map_eq_some_iff.1 hw
    exact h.putPartition hf (by rintro q ⟨⟩; rfl)
  | report obj =>
    obtain ⟨⟨hkey, -, hserial⟩, rfl⟩ := (Option.ite_none_right_eq_some.1 hw).imp_right Option.some.inj
    exact ⟨⟨hserial.trans h.serial, h.locked, h.manager, h.parent⟩, rfl, rfl, hkey⟩

/-! ### Calls -/

/-- A call that leaves the lock and the volumes alone. -/
def harmless : Call → Bool
  | .api (.patchStatus .device _ _) => false
  | .plugin (.createVolume _ _ _ _) | .plugin (.deleteVolume _ _ _ _) | .plugin (.setupDevice _ _ _) => false
  | _ => true

variable {c : Call}

theorem req_of_harmless (hc : harmless c = true) (w : World) : Req c w := by
  unfold Req
  split <;> first | cases hc | trivial

/-- **Every call keeps the invariant**, given what it requires. -/
theorem answer_kept (h : Inv s w) {ch : Choice} {r : c.Resp} (hreq : Req c w)
    (ha : answer ch c w = some (r, w')) : Inv s w' ∧ (harmless c = true → Rely w w') := by
  have hmove : ∀ {w1 : World}, Inv s w1 ∧ Rely w w1 → (w' = w ∨ w' = w1) →
      Inv s w' ∧ (harmless c = true → Rely w w') := by
    rintro w1 ⟨hi, hr⟩ (rfl | rfl)
    · exact ⟨h, fun _ => .refl w'⟩
    · exact ⟨hi, fun _ => hr⟩
  have hsame : Inv s w ∧ Rely w w := ⟨h, .refl w⟩
  unfold answer at ha
  split at ha
  · exact hmove hsame (Fate.answer_state ha)
  · exact hmove hsame (Fate.answer_state ha)
  · exact hmove (h.patchPartitionStatus _ _) (Fate.answer_state ha)
  · exact hmove (h.patchPartition _ _) (Fate.answer_state ha)
  · exact hmove hsame (Fate.answer_state ha)
  · exact hmove hsame (Fate.answer_state ha)
  · -- the lock may change, since there is no volume
    refine ⟨?_, nofun⟩
    rcases Fate.answer_state ha with rfl | rfl
    · exact h
    unfold World.patchDevice
    split
    · exact ⟨h.serial, fun hne => absurd hreq hne, h.manager, h.parent⟩
    · exact h
  · refine ⟨?_, nofun⟩
    rcases Fate.answer_state ha with rfl | rfl
    · exact h
    · exact ⟨h.serial, fun _ => hreq, h.manager, h.parent⟩
  · refine ⟨?_, nofun⟩
    rcases Fate.answer_state ha with rfl | rfl
    · exact h
    · refine ⟨h.serial, fun hne => h.locked fun hnil => hne ?_, h.manager, h.parent⟩
      simp only [World.deleteVolume, hnil, List.filter_nil]
  · obtain ⟨_, -, heq⟩ := Option.map_eq_some_iff.1 ha
    exact hmove hsame (.inl (Prod.mk.inj heq).2.symm)

theorem harmless_of_looksUp (hc : looksUp c = true) : harmless c = true := by
  unfold looksUp at hc
  split at hc <;> trivial

theorem harmless_of_followsAttachment (hc : followsAttachment c = true) : harmless c = true := by
  unfold followsAttachment at hc
  split at hc <;> trivial

theorem harmless_op (hc : harmless c = true) : Prog.Only (harmless ·) (.call c .ret : Proc c.Resp) := only_op hc

/-- The device is locked like that. -/
def Locked (l : Str) (w : World) : Prop := w.lock = l

/-- There is no kernel volume on the device. -/
def Empty (w : World) : Prop := w.volumes = []

theorem Locked.mono (l : Str) (w1 w2 : World) (h : Locked l w1) (hr : Rely w1 w2) : Locked l w2 := hr.lock.trans h

theorem Empty.mono (w1 w2 : World) (h : Empty w1) (hr : Rely w1 w2) : Empty w2 := hr.volumes.trans h

/-! ### Passes -/

section

variable [StdLib]

def outline (s : Setting) : Outline ((machine s).guarded overlooksNone).system where
  Inv := Inv s
  Rely _ := Rely
  Guar _ _ _ := True
  Req _ := Req
  Post _ _ _ := True
  rely_refl _ := .refl
  rely_trans _ := .trans
  init := by
    rintro w ⟨hp, hserial, -, hvolumes⟩
    exact ⟨hserial, fun hne => absurd hvolumes hne, by simp [hp], by simp [hp]⟩
  env := by
    rintro w w' hi ⟨ch, hw⟩
    obtain ⟨hi', hr⟩ := hi.change hw
    exact ⟨hi', fun _ => hr⟩
  guar i j w w' htog := by
    simp [Machine.system, Machine.guarded, machine] at htog

variable {key : Key}

theorem closed : (outline s).Closed := fun hi hreq _ ha => ⟨(answer_kept hi hreq ha).1, trivial⟩

variable {I : World → Prop}

theorem harmless_safe {α : Type} {p : Proc α} (hp : p.Only (harmless ·)) (hw : I w)
    (hI : ∀ w1 w2, I w1 → Rely w1 w2 → I w2) : (outline s).Safe key (fun _ => I) p w :=
  closed.only hp hw hI (fun _ w1 hc _ => req_of_harmless hc w1) fun _ _ w1 _ w2 hc hi h _ ha _ =>
    hI w1 w2 h ((answer_kept hi (req_of_harmless hc w1) ha).2 hc)

theorem ending {α : Type} {p : Proc α} (hp : p.Only (harmless ·)) : (outline s).Complies key p w :=
  closed.complies hp fun _ w1 hc => req_of_harmless hc w1

theorem harmless_check {ε α β : Type} {p : Proc (Except ε α)} {onError : ε → Proc β} {k : α → Proc β}
    (hp : p.Only (harmless ·)) (hw : I w) (hI : ∀ w1 w2, I w1 → Rely w1 w2 → I w2)
    (hfail : ∀ err, (onError err).Only (harmless ·))
    (hk : ∀ a w1, Inv s w1 → I w1 → (outline s).Complies key (k a) w1) :
    (outline s).Complies key (p.check onError k) w := by
  refine .check ((harmless_safe hp hw hI).conseq fun r w1 hi hw1 => ?_)
  cases r with
  | error err => exact ending (hfail err)
  | ok a => exact hk a w1 hi hw1

/-! ### The lock -/

theorem getDevice_safe (hI : ∀ w1 w2, I w1 → Rely w1 w2 → I w2) (hw : I w) (key' : Key) :
    (outline s).Safe key (fun r w1 => I w1 ∧ ∀ d, r = .ok d → Locked d.status.activeBackend w1)
      (get .device .cache key') w := by
  refine closed.call (fun _ _ _ => trivial) (fun _ _ _ h hr => ⟨hI _ _ h.1 hr, fun d hd => (h.2 d hd).mono _ _ _ hr⟩) ?_
  intro ch w1 r w2 hr hi _ ha _ _
  refine ⟨hI _ _ (hI _ _ hw hr) ((answer_kept (c := .api (.get .device .cache key')) hi trivial ha).2 rfl), fun d hd => ?_⟩
  subst hd
  have hserved : (w1.getDevice key', w1) = (.ok d, w2) := Fate.answer_ok ha
  obtain ⟨hd, rfl⟩ := Prod.mk.inj hserved
  unfold World.getDevice at hd
  split at hd
  · cases hd
    rfl
  · cases hd

/-- **The lock is changed** while there is no volume. -/
theorem updateDeviceStatus_safe {b : Str} {f : NVMeDeviceStatus → NVMeDeviceStatus}
    (hf : ∀ status, (f status).activeBackend = b) (key' : Key) (hw : Empty w) :
    (outline s).Safe key (fun r w1 => Empty w1 ∧ (r = .ok () → Locked b w1)) (updateDeviceStatus key' f) w := by
  refine .andThen (getDevice_safe Empty.mono hw key') (fun _ _ h1 => .ret fun w2 hr _ => ⟨h1.1.mono _ _ hr, nofun⟩)
    fun d w1 h1 => ?_
  have hpatch : (outline s).Safe key (fun r w2 => Empty w2 ∧ ∀ d', r = .ok d' → Locked b w2)
      (patchStatus .device d { d with status := f d.status }) w1 := by
    refine closed.call (fun w2 hr _ => h1.1.mono _ _ hr)
      (fun _ _ _ h hr => ⟨h.1.mono _ _ hr, fun d' hd' => (h.2 d' hd').mono _ _ _ hr⟩) ?_
    intro ch w2 r w3 hr _ _ ha _ _
    have hempty : Empty w2 := h1.1.mono _ _ hr
    have hlock : w2.lock = d.status.activeBackend := (h1.2 d rfl).mono _ _ _ hr
    refine ⟨?_, fun d' hd' => ?_⟩
    · rcases Fate.answer_state ha with rfl | rfl
      · exact hempty
      · unfold World.patchDevice
        split <;> exact hempty
    · subst hd'
      have hserved : w2.patchDevice d { d with status := f d.status } = (.ok d', w3) := Fate.answer_ok ha
      unfold World.patchDevice at hserved
      split at hserved
      · obtain ⟨-, rfl⟩ := Prod.mk.inj hserved
        show mergeField d.status.activeBackend (f d.status).activeBackend w2.lock = b
        rw [hlock, mergeField_base, hf]
      · cases hserved
  exact .andThen hpatch (fun _ _ h2 => .ret fun w3 hr _ => ⟨h2.1.mono _ _ hr, nofun⟩)
      fun d' _ h2 => .ret fun w3 hr _ => ⟨h2.1.mono _ _ hr, fun _ => (h2.2 d' rfl).mono _ _ _ hr⟩

theorem verify_safe (hI : ∀ w1 w2, I w1 → Rely w1 w2 → I w2) (hw : I w) (p : NVMePartition) :
    (outline s).Safe key (fun r w1 => I w1 ∧ ∀ d, r = .ok d → Locked d.status.activeBackend w1)
      (verifyProvisioningAuthorization p) w := by
  have hfail : ∀ (e : Err) (w1 : World), I w1 → (outline s).Safe key
      (fun r w2 => I w2 ∧ ∀ d, r = .ok d → Locked d.status.activeBackend w2) (fail e : Proc (Except Err NVMeDevice)) w1 :=
    fun e w1 hw1 => Terms.Safe.ret fun w2 hr _ => ⟨hI _ _ hw1 hr, nofun⟩
  unfold verifyProvisioningAuthorization
  split
  · exact hfail _ w hw
  refine .andThen (harmless_safe (harmless_op rfl) hw hI) (fun _ w1 hw1 => hfail _ w1 hw1) fun claim w1 hw1 => ?_
  split
  · exact hfail _ w1 hw1
  refine .andThen (getDevice_safe hI hw1 _) (fun _ w2 h2 => hfail _ w2 h2.1) fun d w2 h2 => ?_
  split
  · exact hfail _ w2 h2.1
  refine .ret fun w3 hr _ => ⟨hI _ _ h2.1 hr, fun d' hd => ?_⟩
  cases hd
  exact (h2.2 d rfl).mono _ _ _ hr

variable {p : NVMePartition}

theorem whileAuthorized_safe (hI : ∀ w1 w2, I w1 → Rely w1 w2 → I w2) (hw : I w)
    {k : NVMeDevice → Proc (Except Err Result)} (hk : ∀ d w1, Inv s w1 → I w1 → Locked d.status.activeBackend w1 →
      (outline s).Complies key (k d) w1) : (outline s).Complies key (whileAuthorized p k) w := by
  refine .check ((verify_safe hI hw p).conseq fun r w1 hi h1 => ?_)
  cases r with
  | error err =>
    exact ending (rejectUnauthorizedProvisioning_only (fun _ => harmless_of_looksUp) (fun _ _ _ => rfl) p err)
  | ok d => exact hk d w1 hi h1.1 (h1.2 d rfl)

/-! ### The plugins of a partition -/

def spdkPlugins : ResolvedPartitionPlugins := ⟨"spdk", "spdk-lvol", .atomic "spdk", SpdkLvol.manager⟩

def kernelPlugins : ResolvedPartitionPlugins :=
  ⟨"kernel", "parted", { TargetBackend.atomic "kernel" with setupDevice := Kernel.setupDevice }, .atomic "parted"⟩

variable {resolved : ResolvedPartitionPlugins}

theorem resolve_cases (hp : p.spec.volumeManager = [] ∨ p.spec.volumeManager = str "partition")
    (h : resolvePartitionPlugins plugins p = .ok resolved) : resolved = spdkPlugins ∨ resolved = kernelPlugins := by
  have hm : p.spec.volumeManager = [] ∨ p.spec.volumeManager = ("partition" : Str) := hp
  simp only [resolvePartitionPlugins, if_pos hm] at h
  generalize (if p.spec.targetBackend = [] then spdkTargetBackend else p.spec.targetBackend) = name at h
  by_cases hspdk : name = spdkTargetBackend
  · subst hspdk
    exact .inl (Except.ok.inj h).symm
  rw [if_neg hspdk] at h
  by_cases hkernel : name = str "kernel"
  · subst hkernel
    exact .inr (Except.ok.inj h).symm
  have hnone : plugins.getTargetBackend name = .error (.errorf "target backend %q not found" [.str name]) := by
    have h1 : ¬ (str "spdk" = name) := fun h => hspdk h.symm
    have h2 : ¬ (str "kernel" = name) := fun h => hkernel h.symm
    simp [Plugins.getTargetBackend, plugins, TargetBackend.atomic, h1, h2]
  rw [hnone] at h
  cases h

/-! ### Provisioning -/

omit [StdLib] in
theorem failure_only (p : NVMePartition) (reason : Str) (err : Err) (terminal : Bool) :
    (recordProvisioningFailure p reason err terminal).Only (harmless ·) :=
  recordProvisioningFailure_only (fun _ => harmless_of_looksUp) (fun _ _ _ => rfl) p reason err terminal

theorem claimBackend_safe {d : NVMeDevice} {name : Str} (hi : Inv s w) (hbusy : ¬(d.status.activeBackend ≠ [] ∧
    d.status.activeBackend ≠ name)) (hl : Locked d.status.activeBackend w) :
    (outline s).Safe key (fun r w1 => r = .ok () → Locked name w1) (claimBackend d name) w := by
  unfold claimBackend
  split
  · rename_i hfree
    have hempty : Empty w := by
      refine hi.empty fun hkernel => ?_
      have hlock : [] = str "kernel" := hfree.symm.trans (hl.symm.trans hkernel)
      exact absurd hlock (by decide)
    have hf : ∀ status : NVMeDeviceStatus, { status with activeBackend := name }.activeBackend = name := fun _ => rfl
    exact (updateDeviceStatus_safe hf _ hempty).conseq fun _ _ _ h => h.2
  · rename_i hne
    have hname : d.status.activeBackend = name := not_not.1 fun h => hbusy ⟨hne, h⟩
    rw [hname] at hl
    exact .ret fun w1 hr _ _ => hl.mono _ _ _ hr

theorem carveSpdk_only (nodeName : Str) (req : Key) (p : NVMePartition) (externalID devicePath deviceName : Str)
    (requested : ℤ) : (carveVolume nodeName req p spdkPlugins externalID devicePath deviceName requested).Only
      (harmless ·) :=
  carveVolume_only (fun _ => harmless_of_looksUp) (fun _ _ _ => rfl) (fun _ _ _ _ _ => harmless_op rfl)
    (SpdkLvol.setupStorage_only (P := (harmless ·)) rfl fun _ _ => rfl)
    (SpdkLvol.createVolume_only fun _ => rfl)
    nodeName req p externalID devicePath deviceName requested

/-- **A kernel volume is carved** on a device that is locked to the kernel backend. -/
theorem carveKernel_safe (hw : Locked (str "kernel") w) (nodeName : Str) (req : Key) (p : NVMePartition)
    (externalID devicePath deviceName : Str) (requested : ℤ) : (outline s).Complies key
      (carveVolume nodeName req p kernelPlugins externalID devicePath deviceName requested) w := by
  refine harmless_check (harmless_op rfl) hw (Locked.mono _) (fun _ => failure_only _ _ _ _) fun _ w1 _ hw1 => ?_
  refine whileAuthorized_safe (Locked.mono _) hw1 fun _ w2 _ hw2 _ => ?_
  have hcreate : (outline s).Complies key
      (kernelPlugins.volumeManager.createVolume devicePath deviceName externalID p.spec.size) w2 :=
    closed.op fun w3 hr _ => hw2.mono _ _ _ hr
  refine .andThen hcreate (fun _ _ _ => ending (failure_only _ _ _ _)) fun created w3 _ => ?_
  split
  · exact ending (failure_only _ _ _ _)
  split
  · exact ending (failure_only _ _ _ _)
  · exact ending (afterCarving_only (fun _ => harmless_of_looksUp) (fun _ _ _ => rfl)
      (fun _ _ _ _ _ => harmless_op rfl) nodeName req p externalID created)

/-- The lock lets the backend in. -/
def Admits (resolved : ResolvedPartitionPlugins) (l : Str) : Prop := ¬(l ≠ [] ∧ l ≠ resolved.targetBackendName)

theorem provision_safe {nodeName externalID : Str} {req : Key} {requested : ℤ}
    (hsetup : ∀ l pciAddress deviceName options w1, Admits resolved l → Inv s w1 → Locked l w1 →
      (outline s).Safe key (fun _ => Locked l) (resolved.targetBackend.setupDevice pciAddress deviceName options) w1)
    (hcarve : ∀ devicePath deviceName w1, Locked resolved.targetBackendName w1 →
      (outline s).Complies key
        (carveVolume nodeName req p resolved externalID devicePath deviceName requested) w1) (w : World) :
    (outline s).Complies key (provisionPartition nodeName req p resolved externalID requested) w := by
  refine whileAuthorized_safe (I := fun _ => True) (fun _ _ _ _ => trivial) trivial fun d w1 _ _ hl => ?_
  refine harmless_check (rdmaEndpoint_only (fun _ => harmless_of_looksUp) nodeName) hl (Locked.mono _)
    (fun _ => failure_only _ _ _ _) fun _ w2 hi hl => ?_
  split
  · exact ending (failure_only _ _ _ _)
  rename_i hbusy
  refine .andThen (hsetup _ _ _ _ w2 hbusy hi hl) (fun _ _ _ => ending (failure_only _ _ _ _)) fun _ w3 h3 => ?_
  refine harmless_check (findProvisioningDevice_only (fun _ => harmless_of_looksUp) p _) h3 (Locked.mono _)
    (fun _ => failure_only _ _ _ _) fun path w4 _ h4 => ?_
  refine whileAuthorized_safe (Locked.mono _) h4 fun _ w5 hi5 h5 _ => ?_
  exact .andThen (claimBackend_safe hi5 hbusy h5) (fun _ _ _ => ending (failure_only _ _ _ _))
      fun _ w6 h6 => hcarve _ _ w6 (h6 rfl)

/-- **The SPDK backend sets up a device without kernel volumes**: it is not locked to the kernel backend. -/
theorem setupSpdk_safe {l : Str} (hl : Admits spdkPlugins l) (hi : Inv s w) (hw : Locked l w)
    (pciAddress deviceName : Str) (options : Options) : (outline s).Safe key (fun _ => Locked l)
      (spdkPlugins.targetBackend.setupDevice pciAddress deviceName options) w := by
  have hempty : Empty w := by
    refine hi.empty fun hkernel => hl ?_
    obtain rfl : l = str "kernel" := hw.symm.trans hkernel
    exact ⟨by decide, by decide⟩
  refine closed.call (fun w1 hr _ => hempty.mono _ _ hr) (fun _ => Locked.mono l) ?_
  intro ch w1 r w2 hr _ _ ha _ _
  obtain ⟨_, -, heq⟩ := Option.map_eq_some_iff.1 ha
  obtain rfl := (Prod.mk.inj heq).2
  exact hw.mono _ _ _ hr

theorem setupKernel_safe {l : Str} (hw : Locked l w) (pciAddress deviceName : Str) (options : Options) :
    (outline s).Safe key (fun _ => Locked l)
      (kernelPlugins.targetBackend.setupDevice pciAddress deviceName options) w := by
  have honly : (Kernel.setupDevice pciAddress deviceName options).Only (harmless ·) := by
    unfold Kernel.setupDevice
    split
    · exact only_fail _
    · exact .next (harmless_op rfl) only_done
  exact harmless_safe honly hw (Locked.mono l)

theorem provisionPartition_safe
    (hresolved : resolved = spdkPlugins ∨ resolved = kernelPlugins) (nodeName : Str) (req : Key) (p : NVMePartition)
    (externalID : Str) (requested : ℤ) (w : World) : (outline s).Complies key
      (provisionPartition nodeName req p resolved externalID requested) w := by
  rcases hresolved with rfl | rfl
  · exact provision_safe (fun l _ _ _ w1 hl hi hw => setupSpdk_safe hl hi hw _ _ _)
      (fun _ _ w1 _ => ending (carveSpdk_only _ _ _ _ _ _ _)) w
  · exact provision_safe (fun l _ _ _ w1 _ _ hw => setupKernel_safe hw _ _ _)
      (fun _ _ w1 hw => carveKernel_safe hw _ _ _ _ _ _ _) w

theorem exported_only (hresolved : resolved = spdkPlugins ∨ resolved = kernelPlugins)
    (nodeName : Str) (p : NVMePartition) :
    (reconcileExportedPartition nodeName p resolved.targetBackend).Only (harmless ·) := by
  have haccess : ∀ nqn hostNQN, (resolved.targetBackend.reconcileHostAccess nqn hostNQN).Only (harmless ·) := by
    intro nqn hostNQN
    rcases hresolved with rfl | rfl
    · exact harmless_op rfl
    · exact harmless_op rfl
  refine reconcileExportedPartition_only (fun _ => harmless_of_looksUp) (fun _ => harmless_of_followsAttachment) haccess ?_
    nodeName p
  intro f hf nqn blockPath portalIP portalPort options
  rcases hresolved with rfl | rfl
  · cases hf
    exact harmless_op rfl
  · cases hf
    exact harmless_op rfl

theorem reconcileLive_safe
    (hresolved : resolved = spdkPlugins ∨ resolved = kernelPlugins) (nodeName : Str) (req : Key) (p : NVMePartition)
    (externalID volumeID : Str) (w : World) : (outline s).Complies key
      (reconcileLive nodeName req p resolved externalID volumeID) w := by
  unfold reconcileLive
  split
  · exact ending (failure_only _ _ _ _)
  split
  · exact ending (failure_only _ _ _ _)
  refine whileAuthorized_safe (I := fun _ => True) (fun _ _ _ _ => trivial) trivial fun _ w1 _ _ _ => ?_
  have hadd : ∀ q : NVMePartition, (addPartitionFinalizer q).Only (harmless ·) := by
    intro q
    unfold addPartitionFinalizer
    split
    · exact only_done _
    · exact harmless_op rfl
  refine .next (ending (updatePartitionStatus_only (fun _ => harmless_of_looksUp) (fun _ => rfl) _)) fun _ w2 _ => ?_
  refine .next (ending (ensurePartitionIdentityAndFinalizer_only (updatePartitionStatus_only
    (fun _ => harmless_of_looksUp) (fun _ => rfl) _) fun q _ => hadd q)) fun p' w3 _ => ?_
  refine .next (ending (exported_only hresolved nodeName p')) fun handled w4 _ => ?_
  cases handled with
  | some result => exact .ended
  | none => exact provisionPartition_safe hresolved nodeName req p' externalID _ w4

/-! ### Deletion -/

/-- **The lock is released** when no other live partition is on the device, and then no volume is left. -/
theorem clearInactiveBackend_safe (hkey : p.key = key)
    (hp : p.spec.parentDeviceSerialNumber = s.serial) (nodeName targetBackendName : Str) (w : World) :
    (outline s).Complies key (clearInactiveBackend nodeName p targetBackendName) w := by
  have hlist : (outline s).Safe key (fun r w1 => ∀ partitions, r = .ok partitions →
      partitions.any (sharesDevice p) = false → Empty w1) (list .partition .cache) w := by
    refine closed.call (fun _ _ _ => trivial)
      (fun _ _ _ h hr partitions hok hnone => (h partitions hok hnone).mono _ _ hr) ?_
    intro ch w1 r w2 _ hi hguard ha _ _ partitions hok hnone
    subst hok
    have hserved : (.ok w1.partitions.objects, w1) = ((.ok partitions : Except Err (List NVMePartition)), w2) :=
      Fate.answer_ok ha
    obtain ⟨hlisted, rfl⟩ := Prod.mk.inj hserved
    obtain rfl := Except.ok.inj hlisted
    refine List.eq_nil_iff_forall_not_mem.2 fun v hv => ?_
    -- the partition of a volume that is left shares the device
    obtain ⟨q, hq, hlive⟩ := List.any_eq_true.1 (List.all_eq_true.1 hguard v hv)
    simp only [Bool.and_eq_true, decide_eq_true_eq, Bool.not_eq_true', decide_not] at hlive
    obtain ⟨⟨⟨hother, halive⟩, hserial⟩, -⟩ := hlive
    have hshares : sharesDevice p q = true := by
      have hne : q.metadata.ns ≠ p.metadata.ns ∨ q.metadata.name ≠ p.metadata.name := by
        by_contra hsame
        simp only [not_or, not_not] at hsame
        refine of_decide_eq_false hother ?_
        rw [← hkey, Object.key, Object.key, hsame.1, hsame.2]
      simp only [sharesDevice, Bool.and_eq_true, Bool.or_eq_true, decide_eq_true_eq, Bool.not_eq_true', decide_not]
      exact ⟨⟨(hserial.trans hi.serial).trans hp.symm, by simpa using hne⟩, halive⟩
    exact Bool.false_ne_true (hnone.symm.trans (List.any_eq_true.2 ⟨q, hq, hshares⟩))
  unfold clearInactiveBackend
  split
  · exact .ended
  refine .next hlist fun partitions w1 h1 => ?_
  split
  · exact .ended
  rename_i hnone
  have hempty : Empty w1 := h1 partitions rfl (Bool.not_eq_true _ ▸ hnone)
  have hname := assignedDeviceName_only (P := (harmless ·)) (fun _ => harmless_of_looksUp) nodeName p
  refine harmless_check hname hempty Empty.mono only_fail fun deviceName w2 _ hw2 => ?_
  have hf : ∀ status : NVMeDeviceStatus, { status with activeBackend := [] }.activeBackend = [] := fun _ => rfl
  exact (updateDeviceStatus_safe hf _ hw2).conseq fun _ _ _ _ => trivial

theorem deleteBackendVolume_safe (hresolved : resolved = spdkPlugins ∨ resolved = kernelPlugins) (hkey : p.key = key)
    (hp : p.spec.parentDeviceSerialNumber = [] ∨ p.spec.parentDeviceSerialNumber = s.serial) (nodeName externalID : Str)
    (w : World) : (outline s).Complies key (deleteBackendVolume nodeName p resolved externalID) w := by
  unfold deleteBackendVolume
  split
  swap
  · exact .ended
  rename_i hplaced
  have hserial := hp.resolve_left hplaced
  refine .next (ending (resolveDeletionDevice_only (fun _ => harmless_of_looksUp) nodeName p _)) fun device w1 _ => ?_
  have hdelete : (outline s).Complies key (resolved.volumeManager.deleteVolume device.1 device.2
      externalID (backendVolumeIdentity p.status)) w1 := by
    rcases hresolved with rfl | rfl
    · exact ending (SpdkLvol.deleteVolume_only (fun _ => rfl) device.1 device.2 _ _)
    · exact closed.op fun _ _ _ => trivial
  exact .next hdelete fun _ w2 _ => clearInactiveBackend_safe hkey hserial nodeName _ w2

theorem reconcilePartitionDeletion_safe
    (hresolved : resolved = spdkPlugins ∨ resolved = kernelPlugins) (hkey : p.key = key)
    (hp : p.spec.parentDeviceSerialNumber = [] ∨ p.spec.parentDeviceSerialNumber = s.serial) (nodeName externalID : Str)
    (w : World) : (outline s).Complies key (reconcilePartitionDeletion nodeName key p resolved externalID) w := by
  unfold reconcilePartitionDeletion
  split
  · exact .ended
  have hunexport : ∀ nqn, (resolved.targetBackend.unexportVolume nqn).Only (harmless ·) := by
    intro nqn
    rcases hresolved with rfl | rfl
    · exact harmless_op rfl
    · exact harmless_op rfl
  refine .next (ending (hunexport _)) fun _ w1 _ => ?_
  refine .next (ending (releaseAttachmentAfterUnexport_only (fun _ => harmless_of_followsAttachment) (fun _ => rfl) p))
    fun _ w2 _ => ?_
  refine .next (deleteBackendVolume_safe hresolved hkey hp nodeName externalID w2) fun _ w3 _ => ?_
  refine ending (Prog.Only.check (harmless_op rfl) (fun err => ?_) fun _ =>
    Prog.Only.next (harmless_op rfl) fun _ => only_done 0)
  split
  · exact only_done 0
  · exact only_fail err

/-! ### The pass -/

theorem reconcile_safe (key : Key) (w : World) : (outline s).Complies key (reconcile plugins s.nodeName key) w := by
  have hget : (outline s).Safe key (fun r _ => ∀ p, r = .ok p → p.key = key ∧
      (p.spec.volumeManager = [] ∨ p.spec.volumeManager = str "partition") ∧
      (p.spec.parentDeviceSerialNumber = [] ∨ p.spec.parentDeviceSerialNumber = s.serial))
      (get .partition .cache key) w := by
    refine closed.call (fun _ _ _ => trivial) (fun _ _ _ h _ => h) ?_
    intro ch w1 r w2 _ hi _ ha _ _ p hok
    subst hok
    have hserved : (found (w1.partitions.find key), w1) = (.ok p, w2) := Fate.answer_ok ha
    obtain ⟨hmem, hkey⟩ := Store.mem_of_find (found_eq_ok (Prod.mk.inj hserved).1)
    exact ⟨hkey, hi.manager p hmem, hi.parent p hmem⟩
  refine .andThen hget (fun _ _ _ => ?_) fun p w1 h1 => ?_
  · split <;> exact .ended
  obtain ⟨hkey, hmanager, hparent⟩ := h1 p rfl
  split
  · exact .ended
  split
  · exact .ended
  split
  · split
    · exact ending (failure_only _ _ _ _)
    · exact .ended
  · rename_i resolved hresolve
    have hresolved := resolve_cases hmanager hresolve
    split
    · exact reconcilePartitionDeletion_safe hresolved hkey hparent _ _ w1
    · exact reconcileLive_safe hresolved _ _ _ _ _ w1

/-- **A device with a kernel volume is locked to the kernel backend**, and the SPDK backend never sets it up, in
every run in which a deletion pass that looks for other partitions of the device finds each kernel volume that is
left to be one of a partition that is not marked for deletion. -/
theorem locked_while_carved {pool : Pool Call Call.Resp World Key (Except Err Result)}
    (h : ((machine s).guarded overlooksNone).system.Reachable pool) :
    (pool.world.volumes ≠ [] → pool.world.lock = str "kernel") ∧
    ∀ key pciAddress deviceName options k,
      (key, .call (.plugin (.setupDevice pciAddress deviceName options)) k) ∈ pool.threads → pool.world.volumes = [] := by
  have hkept : (outline s).Kept pool := Outline.Kept.reachable (fun key _ w _ _ => reconcile_safe key w) h
  exact ⟨hkept.inv.locked, fun key pciAddress deviceName options k ht => hkept.req ht⟩

end

/-! ### Runs -/

section

attribute [local instance] asciiLib

def sampleSetting : Setting := ⟨"n1", "s1"⟩

def sampleWorld : World := ⟨⟨[], 0⟩, Manager.sampleDevice, []⟩

theorem initial_sampleWorld : initial sampleSetting sampleWorld := ⟨rfl, rfl, rfl, rfl⟩

def sampleKey (name : String) : Key := ⟨str "ns", str name⟩

def samplePartition (name backend : String) : NVMePartition where
  metadata := { ns := "ns", name := str name, uid := str name, generation := 1 }
  spec := { size := 4194304, targetBackend := str backend }
  status := {}

/-- The placement that the manager selects, with its authorization. -/
def sampleSelected (name backend : String) : NVMePartition :=
  Manager.withAuthorization
    (Manager.withPlacement (samplePartition name backend) Manager.sampleDevice Manager.sampleRef)

/-- A partition is created, and placed on the device. -/
def placing (name backend : String) : List (Act Key Choice) :=
  [.env { change := .create (str name) (samplePartition name backend) },
    .env { change := .write (sampleSelected name backend) },
    .env { change := .place (sampleKey name) Manager.sampleRef }]

def replies : (c : Call) → Option c.Resp
  | .node (.resetSPDKDevice _) => some (.ok ())
  | c => Manager.sampleReplies c

/-- A pass for the partition makes `n` calls. -/
def pass (name : String) (n : ℕ) : List (Act Key Choice) :=
  .start (sampleKey name) ::
    Act.serve { identity := { backendVolumeID := "v", capacityBytes := 4194304 }, reply := replies } 0 n

/-- Two partitions of the kernel backend are placed and provisioned. -/
def bothCarved : List (Act Key Choice) :=
  placing "p1" "kernel" ++ placing "p2" "kernel" ++ pass "p1" 31 ++ [.drop 0] ++ pass "p2" 29 ++ [.drop 0]

/-- A stored partition has a volume. -/
def carved (w : World) : Bool := w.partitions.objects.any fun p => (identitiesForPartition p).1 ∈ w.volumes

/-- The pass is about to set a device up. -/
def setsUp : Key × Proc (Except Err Result) → Bool
  | (_, .call (.plugin (.setupDevice _ _ _)) _) => true
  | _ => false

theorem eq_of_setsUp {t : Key × Proc (Except Err Result)} (h : setsUp t = true) :
    ∃ key pciAddress deviceName options k, t = (key, .call (.plugin (.setupDevice pciAddress deviceName options)) k) := by
  unfold setsUp at h
  split at h
  · exact ⟨_, _, _, _, _, rfl⟩
  · cases h

/-- One of two partitions is deleted while the other one is live: the device stays locked. -/
theorem locked_while_carved_sibling : ∃ pool, ((machine sampleSetting).guarded overlooksNone).system.Reachable pool ∧
    (∃ p ∈ pool.world.partitions.objects, (identitiesForPartition p).1 ∈ pool.world.volumes) ∧
    pool.world.lock = str "kernel" := by
  obtain ⟨pool, hpool, hp⟩ := Machine.exists_reachable (M := (machine sampleSetting).guarded overlooksNone)
    (List.flatten [bothCarved, [.env { change := .delete (sampleKey "p1") }], pass "p1" 8]) sampleWorld
    (fun c => carved c.world)
    (show (machine sampleSetting).init sampleWorld from initial_sampleWorld) (by decide +kernel)
  obtain ⟨p, hmem, hv⟩ := List.any_eq_true.1 hp
  have hcarved : (identitiesForPartition p).1 ∈ pool.world.volumes := of_decide_eq_true hv
  exact ⟨pool, hpool, ⟨p, hmem, hcarved⟩, (locked_while_carved hpool).1 (List.ne_nil_of_mem hcarved)⟩

/-- **The lock is released too early.**  Two partitions are marked for deletion.  The deletion pass of the first
one finds no other live partition and releases the lock, though the volume of the second one is still there; then
a partition of the SPDK backend is placed on the device, and its pass is about to set the device up. -/
theorem set_up_while_carved : ∃ pool, (machine sampleSetting).system.Reachable pool ∧
    (∃ p ∈ pool.world.partitions.objects, (identitiesForPartition p).1 ∈ pool.world.volumes) ∧
    pool.world.lock ≠ str "kernel" ∧
    ∃ key pciAddress deviceName options k,
      (key, .call (.plugin (.setupDevice pciAddress deviceName options)) k) ∈ pool.threads := by
  obtain ⟨pool, hpool, hp⟩ := Machine.exists_reachable (M := machine sampleSetting)
    (List.flatten [bothCarved,
      [.env { change := .delete (sampleKey "p1") }, .env { change := .delete (sampleKey "p2") }], pass "p1" 11,
      [.drop 0], placing "p3" "spdk", pass "p3" 12]) sampleWorld
    (fun c => carved c.world && decide (c.world.lock ≠ str "kernel") && c.threads.any setsUp)
    (show (machine sampleSetting).init sampleWorld from initial_sampleWorld) (by decide +kernel)
  simp only [Bool.and_eq_true, decide_eq_true_eq] at hp
  obtain ⟨⟨hcarved, hlock⟩, hthreads⟩ := hp
  obtain ⟨p, hmem, hv⟩ := List.any_eq_true.1 hcarved
  obtain ⟨t, ht, hsetup⟩ := List.any_eq_true.1 hthreads
  obtain ⟨key, pciAddress, deviceName, options, k, rfl⟩ := eq_of_setsUp hsetup
  exact ⟨pool, hpool, ⟨p, hmem, of_decide_eq_true hv⟩, hlock, key, pciAddress, deviceName, options, k, ht⟩

end

end Distort.Agent.BackendLock
