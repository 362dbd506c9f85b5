import Mathlib.Algebra.Order.BigOperators.Group.List
import Distort.Lib.Machine
import Distort.Lib.Store
import Distort.Manager.Placement

/-!
No device is promised more than it has.

Any number of `Reconcile` runs of one manager, one at a time for each partition, while others create
partitions without a placement, delete them, take off finalizers and report devices.  A manager that
dies takes its runs and its locks with it, and the next one starts with neither.

* `never_overcommitted` — in every run in which no partition is larger, when it is placed, than the one
  that the run for it was shown first, the partitions of a device fit into it, and no sum wraps;
* `overcommitted` — a partition that was created again, larger, under the name of another one is placed
  on a device that is too small for it.

What the cache of the manager shows, and what the nodes and the claims are, is left open.
-/

namespace Distort.Manager.Commitment

open Go Lib Lib.Kube Api Proc

/-! ### Sums -/

/-- The bytes that a partition of this size takes. -/
def rounded (size : ℤ) : ℤ := (Capacity.roundUp size).toOption.getD 0

/-- What a partition takes of the capacity that is counted. -/
def weight (on : NVMePartitionSpec → Bool) (p : NVMePartition) : ℤ := if on p.spec then rounded p.spec.size else 0

/-- What all of them take, as an integer. -/
def allocated (on : NVMePartitionSpec → Bool) (ps : List NVMePartition) : ℤ := (ps.map (weight on)).sum

def onSerial (serial : Str) (s : NVMePartitionSpec) : Bool := s.parentDeviceSerialNumber = serial

def onDevice (node serial : Str) (s : NVMePartitionSpec) : Bool :=
  s.nodeName = node && s.parentDeviceSerialNumber = serial

variable {on : NVMePartitionSpec → Bool}

theorem rounded_eq {size bytes : ℤ} (h : Capacity.roundUp size = .ok bytes) : rounded size = bytes := by
  simp [rounded, h, Except.toOption]

theorem rounded_nonneg (size : ℤ) : 0 ≤ rounded size := by
  rcases h : Capacity.roundUp size with err | bytes
  · simp [rounded, h, Except.toOption]
  rw [rounded_eq h]
  exact (Capacity.roundUp_pos h).1.le

theorem weight_nonneg (on : NVMePartitionSpec → Bool) (p : NVMePartition) : 0 ≤ weight on p := by
  unfold weight
  split
  · exact rounded_nonneg _
  · exact le_rfl

theorem weight_le (on : NVMePartitionSpec → Bool) (p : NVMePartition) : weight on p ≤ rounded p.spec.size := by
  unfold weight
  split
  · exact le_rfl
  · exact rounded_nonneg _

variable {p : NVMePartition} {serial : Str}

theorem weight_onSerial_of_ne (h : p.spec.parentDeviceSerialNumber ≠ serial) : weight (onSerial serial) p = 0 :=
  if_neg fun hon => h (of_decide_eq_true hon)

theorem weight_onDevice_of_ne {node serial : Str}
    (h : ¬ (p.spec.nodeName = node ∧ p.spec.parentDeviceSerialNumber = serial)) :
    weight (onDevice node serial) p = 0 := by
  refine if_neg fun hon => h ?_
  obtain ⟨hn, hs⟩ := (Bool.and_eq_true _ _).mp hon
  exact ⟨of_decide_eq_true hn, of_decide_eq_true hs⟩

theorem allocated_nonneg (on : NVMePartitionSpec → Bool) (ps : List NVMePartition) : 0 ≤ allocated on ps := by
  refine List.sum_nonneg fun x hx => ?_
  obtain ⟨p, -, rfl⟩ := List.mem_map.1 hx
  exact weight_nonneg on p

theorem allocated_onDevice_le (node serial : Str) (ps : List NVMePartition) :
    allocated (onDevice node serial) ps ≤ allocated (onSerial serial) ps := by
  refine List.sum_le_sum fun p _ => ?_
  have := rounded_nonneg p.spec.size
  by_cases hs : p.spec.parentDeviceSerialNumber = serial <;> by_cases hn : p.spec.nodeName = node <;>
    simp [weight, onDevice, onSerial, hs, hn, this]

variable {ps : List NVMePartition}

/-- **`allocatedCapacityForDevice` counts without a wrap**, or fails. -/
theorem addAllocated_ok {used total : ℤ}
    (h : addAllocated serial ps used = .ok total) (h0 : 0 ≤ used) (h1 : used ≤ maxInt64) :
    total = used + allocated (onSerial serial) ps ∧ total ≤ maxInt64 := by
  induction ps generalizing used with
  | nil =>
    obtain rfl := Except.ok.inj h
    exact ⟨by simp [allocated], h1⟩
  | cons p ps ih =>
    have hcons : allocated (onSerial serial) (p :: ps) = weight (onSerial serial) p + allocated (onSerial serial) ps := by
      simp [allocated]
    simp only [addAllocated] at h
    split at h
    · rename_i hne
      rw [hcons, weight_onSerial_of_ne hne, zero_add]
      exact ih h h0 h1
    · rename_i heq
      rcases hr : Capacity.roundUp p.spec.size with err | bytes
      · simp [hr] at h
      simp only [hr] at h
      have hw : weight (onSerial serial) p = bytes := by
        simp [weight, onSerial, not_not.1 heq, rounded_eq hr]
      obtain ⟨hpos, hmax⟩ := Capacity.roundUp_pos hr
      have hint : maxInt64 = 9223372036854775807 := rfl
      rw [i64_of_range (by omega) (by omega)] at h
      split at h
      · cases h
      rename_i hfits
      rw [i64_of_range (by omega) (by omega)] at h
      obtain ⟨htotal, hle⟩ := ih h (by omega) (by omega)
      refine ⟨?_, hle⟩
      rw [htotal, hcons, hw]
      omega

variable {device : NVMeDevice}

theorem availableCapacity_ok {free : ℤ}
    (h : availableCapacity device ps = .ok free) (h0 : 0 < device.spec.totalCapacity)
    (h1 : device.spec.totalCapacity ≤ maxInt64) :
    free = max (device.spec.totalCapacity - allocated (onSerial device.spec.serialNumber) ps) 0 := by
  simp only [availableCapacity, allocatedCapacityForDevice] at h
  rcases hu : addAllocated device.spec.serialNumber ps 0 with err | used
  · simp [hu, Except.map] at h
  have hint : maxInt64 = 9223372036854775807 := rfl
  obtain ⟨hused, hmax⟩ := addAllocated_ok hu le_rfl (by decide)
  have hnonneg := allocated_nonneg (onSerial device.spec.serialNumber) ps
  simp only [hu, Except.map, Except.ok.injEq] at h
  rw [i64_of_range (by omega) (by omega)] at h
  rw [← h, hused, zero_add]

/-! ### Sums over a store -/

variable {v : Option NVMePartition}

section store

variable {s : Store NVMePartitionSpec NVMePartitionStatus} {key : Key} {p : NVMePartition}

theorem allocated_put_le (h : s.Ok) (hf : s.find key = some p) (hv : ∀ q, v = some q → weight on q ≤ weight on p) :
    allocated on (s.put key v).objects ≤ allocated on s.objects := by
  have hsum := h.sum_put hf v (weight on)
  have hle : (v.map (weight on)).getD 0 ≤ weight on p := by
    cases v with
    | none => exact weight_nonneg on p
    | some q => exact hv q rfl
  unfold allocated
  omega

theorem allocated_put_add (on : NVMePartitionSpec → Bool) {q : NVMePartition} (h : s.Ok) (hf : s.find key = some p)
    (hv : ∀ x, v = some x → x = q) : allocated on (s.put key v).objects ≤ allocated on s.objects + weight on q := by
  have hsum := h.sum_put hf v (weight on)
  have hpos := weight_nonneg on p
  have hle : (v.map (weight on)).getD 0 ≤ weight on q := by
    cases v with
    | none => exact weight_nonneg on q
    | some x =>
      rw [hv x rfl]
      exact le_rfl
  unfold allocated
  omega

theorem allocated_add : allocated on (s.add p).objects = allocated on s.objects + weight on p := by
  simp [allocated, Store.add]

end store

/-! ### The state -/

/-- A lock that is held: the manager, the serial number, and the partition of the run that holds it. -/
structure Lock where
  manager : ℕ
  name : Str
  holder : Key
  deriving DecidableEq

structure World where
  partitions : Store NVMePartitionSpec NVMePartitionStatus
  devices : List NVMeDevice
  /-- Every device as it was ever reported. -/
  known : List NVMeDeviceSpec
  locks : List Lock
  /-- The sizes that the runs were shown first, newest first. -/
  shown : List (Key × ℤ)

/-- What others do. -/
inductive Change where
  /-- A partition is created without a placement. -/
  | create (uid : Str) (obj : NVMePartition)
  | delete (key : Key)
  /-- Any write that leaves the size and the placement alone; finalizers may go. -/
  | write (obj : NVMePartition)
  | report (devices : List NVMeDevice)

structure Choice where
  fate : Fate := .ok
  /-- What the cache shows, if not what is stored. -/
  cached : Option NVMePartition := none
  claim : Except Err NVMeDeviceClaim := .error notFound
  node : Except Err RDMAStorageNode := .error notFound
  nodes : List RDMAStorageNode := []
  time : ℤ := 0
  change : Change := .delete ⟨[], []⟩

namespace World

/-- A read through the cache; the size is noted. -/
def getCached (cached : Option NVMePartition) (key : Key) (w : World) : Except Err NVMePartition × World :=
  match (cached.filter fun p => p.key = key).or (w.partitions.find key) with
  | none => (.error notFound, w)
  | some p => (.ok p, { w with shown := (key, p.spec.size) :: w.shown })

def patchStatus (base obj : NVMePartition) (w : World) : Except Err NVMePartition × World :=
  let r := w.partitions.patchStatus NVMePartitionStatus.merge base obj
  (r.1, { w with partitions := r.2 })

/-- An update; the size cannot be changed. -/
def update (obj : NVMePartition) (w : World) : Except Err NVMePartition × World :=
  let r := w.partitions.update (fun old new => new.size = old.size) obj
  (r.1, { w with partitions := r.2 })

/-- What a write of others makes of a stored partition. -/
def written (w : World) (stored obj : NVMePartition) : NVMePartition :=
  w.partitions.stamp { obj with
    metadata := { obj.metadata with
      ns := stored.metadata.ns, name := stored.metadata.name, uid := stored.metadata.uid
      deletionTimestamp := stored.metadata.deletionTimestamp }
    spec := { obj.spec with
      size := stored.spec.size, nodeName := stored.spec.nodeName
      parentDeviceSerialNumber := stored.spec.parentDeviceSerialNumber } }

/-- A report that the schema admits, and in which no device has less than was ever reported of it. -/
def admitsReport (w : World) (devices : List NVMeDevice) : Bool :=
  devices.all fun d => d.spec.serialNumber ≠ [] && 0 < d.spec.totalCapacity && d.spec.totalCapacity ≤ maxInt64 &&
    (devices.map (·.spec) ++ w.known).all fun k =>
      !(k.nodeName = d.spec.nodeName && k.serialNumber = d.spec.serialNumber) || k.totalCapacity ≤ d.spec.totalCapacity

def change (w : World) : Change → Option World
  | .create uid obj =>
    if w.partitions.find obj.key = none ∧ obj.spec.nodeName = [] ∧ obj.spec.parentDeviceSerialNumber = [] ∧
        0 < obj.spec.size ∧ obj.spec.size ≤ Capacity.maxAllocatableBytes then
      some { w with partitions := (w.partitions.create uid ({} : NVMePartitionStatus) obj).2 }
    else none
  | .delete key => some { w with partitions := (w.partitions.delete key).2 }
  | .write obj => (w.partitions.find obj.key).map fun stored =>
      { w with partitions := w.partitions.put obj.key (w.written stored obj).settle }
  | .report devices =>
    if w.admitsReport devices then some { w with devices, known := devices.map (·.spec) ++ w.known } else none

/-- The lock is taken, if it is free. -/
def lock (manager : ℕ) (name : Str) (holder : Key) (w : World) : Option World :=
  if w.locks.any fun l => l.manager = manager && l.name = name then none
  else some { w with locks := ⟨manager, name, holder⟩ :: w.locks }

def unlock (manager : ℕ) (name : Str) (w : World) : World :=
  { w with locks := w.locks.filter fun l => !(l.manager = manager && l.name = name) }

end World

/-! ### The system -/

/-- A run of `Reconcile` in a manager. -/
structure Job where
  manager : ℕ
  key : Key

def answer (ch : Choice) (j : Job) : (c : Call) → World → Option (c.Resp × World)
  | .api (.get .partition .cache key), w => ch.fate.answerAny w (w.getCached ch.cached key)
  | .api (.get .partition .api key), w =>
    ch.fate.answerAny w (found (w.partitions.find key), w)
  | .api (.list .partition _), w => ch.fate.answerAny w (.ok w.partitions.objects, w)
  | .api (.get .device _ key), w =>
    ch.fate.answerAny w (found (w.devices.find? fun d => d.key = key), w)
  | .api (.list .device _), w => ch.fate.answerAny w (.ok w.devices, w)
  | .api (.get .claim _ _), w => some (ch.claim, w)
  | .api (.get .node _ _), w => some (ch.node, w)
  | .api (.list .node _), w => ch.fate.answerAny w (.ok ch.nodes, w)
  | .api (.patchStatus .partition base obj), w => ch.fate.answerAny w (w.patchStatus base obj)
  | .api (.update .partition obj), w => ch.fate.answerAny w (w.update obj)
  | .proc .now, w => some (ch.time, w)
  | .proc (.lock name), w => (w.lock j.manager name j.key).map fun w' => ((), w')
  | .proc (.unlock name), w => some ((), w.unlock j.manager name)
  | _, _ => none

def initial (w : World) : Prop :=
  w.partitions.objects = [] ∧ w.devices = [] ∧ w.known = [] ∧ w.locks = []

/-- **The system of the partitions, the devices and the manager.**  There is one leader, and it has one
run for each partition. -/
def machine [StdLib] : Machine Call Call.Resp World Job Choice (Except Err Requeue) where
  body j := reconcile .api j.key
  answer := answer
  change ch w := w.change ch.change
  init := initial
  together i j := i.manager = j.manager && i.key ≠ j.key

/-- When a partition is placed, it is not larger than the one that the run for it was shown first. -/
def notLarger (_ : Job) (c : Call) (w : World) : Bool :=
  match c with
  | .api (.update .partition obj) =>
    (w.partitions.find obj.key).all fun p => (w.shown.lookup obj.key).any fun size => p.spec.size ≤ size
  | _ => true

/-! ### The invariant -/

structure Inv (w : World) : Prop where
  ok : w.partitions.Ok
  locks : (w.locks.map fun l => (l.manager, l.name)).Nodup
  devices : ∀ d ∈ w.devices, d.spec ∈ w.known
  range : ∀ k ∈ w.known, k.serialNumber ≠ [] ∧ 0 < k.totalCapacity ∧ k.totalCapacity ≤ maxInt64
  /-- A device never has less than was reported of it before. -/
  grown : ∀ d ∈ w.devices, ∀ k ∈ w.known, k.nodeName = d.spec.nodeName → k.serialNumber = d.spec.serialNumber →
    k.totalCapacity ≤ d.spec.totalCapacity
  sizes : ∀ p ∈ w.partitions.objects, ∃ bytes, Capacity.roundUp p.spec.size = .ok bytes
  fits : ∀ node serial, serial ≠ [] → allocated (onDevice node serial) w.partitions.objects ≤ 0 ∨
    ∃ k ∈ w.known, k.nodeName = node ∧ k.serialNumber = serial ∧
      allocated (onDevice node serial) w.partitions.objects ≤ k.totalCapacity

variable {w w' : World}

theorem Inv.fits_device (h : Inv w) {d : NVMeDevice} (hd : d ∈ w.devices) :
    allocated (onDevice d.spec.nodeName d.spec.serialNumber) w.partitions.objects ≤ d.spec.totalCapacity := by
  obtain ⟨hserial, hpos, -⟩ := h.range d.spec (h.devices d hd)
  rcases h.fits d.spec.nodeName d.spec.serialNumber hserial with hzero | ⟨k, hk, hkn, hks, hle⟩
  · exact hzero.trans hpos.le
  · exact hle.trans (h.grown d hd k hk hkn hks)

/-! ### Steps -/

/-- The two specs count the same. -/
def Alike (s t : NVMePartitionSpec) : Prop :=
  s.size = t.size ∧ s.nodeName = t.nodeName ∧ s.parentDeviceSerialNumber = t.parentDeviceSerialNumber

theorem Alike.weight_onSerial {p q : NVMePartition} (h : Alike q.spec p.spec) (serial : Str) :
    weight (onSerial serial) q = weight (onSerial serial) p := by
  obtain ⟨hsize, -, hserial⟩ := h
  have hon : onSerial serial q.spec = onSerial serial p.spec := by rw [onSerial, onSerial, hserial]
  rw [weight, weight, hon, hsize]

theorem Alike.weight_onDevice {p q : NVMePartition} (h : Alike q.spec p.spec) (node serial : Str) :
    weight (onDevice node serial) q = weight (onDevice node serial) p := by
  obtain ⟨hsize, hnode, hserial⟩ := h
  have hon : onDevice node serial q.spec = onDevice node serial p.spec := by
    rw [onDevice, onDevice, hnode, hserial]
  rw [weight, weight, hon, hsize]

/-- What the locks guard: the sum of a serial has not grown. -/
def Shrinks (serial : Str) (w w' : World) : Prop :=
  allocated (onSerial serial) w'.partitions.objects ≤ allocated (onSerial serial) w.partitions.objects

theorem Inv.shrink (h : Inv w) {s : Store NVMePartitionSpec NVMePartitionStatus} (hok : s.Ok)
    (hsizes : ∀ p ∈ s.objects, ∃ bytes, Capacity.roundUp p.spec.size = .ok bytes) (hle : ∀ node serial, serial ≠ [] →
      allocated (onDevice node serial) s.objects ≤ allocated (onDevice node serial) w.partitions.objects) :
    Inv { w with partitions := s } := by
  refine ⟨hok, h.locks, h.devices, h.range, h.grown, hsizes, fun node serial hserial => ?_⟩
  have hthis := hle node serial hserial
  rcases h.fits node serial hserial with hzero | ⟨k, hk, hkn, hks, hfit⟩
  · exact .inl (hthis.trans hzero)
  · exact .inr ⟨k, hk, hkn, hks, hthis.trans hfit⟩

theorem Inv.put_alike (h : Inv w) {key : Key} (hf : w.partitions.find key = some p)
    (hv : ∀ q, v = some q → q.key = key ∧ q.metadata.resourceVersion = w.partitions.version + 1 ∧ Alike q.spec p.spec) :
    Inv { w with partitions := w.partitions.put key v } ∧
      ∀ serial, Shrinks serial w { w with partitions := w.partitions.put key v } := by
  refine ⟨h.shrink (h.ok.put fun q hq => ⟨(hv q hq).1, (hv q hq).2.1⟩) ?_ fun node serial _ => ?_, fun serial => ?_⟩
  · intro q hq
    rcases Store.mem_put.1 hq with ⟨hold, -⟩ | ⟨hnew, -⟩
    · exact h.sizes q hold
    · rw [(hv q hnew).2.2.1]
      exact h.sizes p (Store.mem_of_find hf).1
  · exact allocated_put_le h.ok hf fun q hq => ((hv q hq).2.2.weight_onDevice node serial).le
  · exact allocated_put_le h.ok hf fun q hq => ((hv q hq).2.2.weight_onSerial serial).le

/-- What others leave alone: the locks and the notes; no sum of a device grows. -/
structure Aside (w w' : World) : Prop where
  evolves : w.partitions.Evolves w'.partitions
  known : w.known ⊆ w'.known
  shown : w'.shown = w.shown
  locks : w'.locks = w.locks
  shrinks : ∀ serial, serial ≠ [] → Shrinks serial w w'

theorem Inv.create (h : Inv w) {uid : Str} {obj : NVMePartition} (hw : w.change (.create uid obj) = some w') :
    Inv w' ∧ Aside w w' := by
  simp only [World.change, Option.ite_none_right_eq_some, Option.some.injEq] at hw
  obtain ⟨⟨hf, -, hserial, hpos, hmax⟩, rfl⟩ := hw
  have hadd : (w.partitions.create uid ({} : NVMePartitionStatus) obj).2 =
      w.partitions.add (w.partitions.admitted uid {} obj) := by
    simp only [Store.create, hf]
  rw [hadd]
  have hweight : ∀ on : NVMePartitionSpec → Bool, on obj.spec = false →
      allocated on (w.partitions.add (w.partitions.admitted uid {} obj)).objects =
        allocated on w.partitions.objects := by
    intro on hon
    rw [allocated_add]
    simp [weight, Store.admitted, Object.admitted, hon]
  have hon : ∀ serial, serial ≠ [] → onSerial serial obj.spec = false := by
    intro serial hne
    simp [onSerial, hserial, Ne.symm hne]
  refine ⟨h.shrink (h.ok.add hf rfl) ?_ fun node serial hne => ?_, Store.evolves_add rfl, fun _ hk => hk, rfl, rfl,
    fun serial hne => (hweight _ (hon serial hne)).le⟩
  · intro p hp
    rcases List.mem_append.1 hp with hold | hnew
    · exact h.sizes p hold
    · obtain rfl := List.mem_singleton.1 hnew
      exact ⟨_, Capacity.roundUp_eq_ok.2 ⟨hpos, hmax, rfl⟩⟩
  · refine (hweight _ ?_).le
    simp [onDevice, hserial, Ne.symm hne]

theorem Inv.report (h : Inv w) {devices : List NVMeDevice} (hw : w.change (.report devices) = some w') :
    Inv w' ∧ Aside w w' := by
  simp only [World.change, Option.ite_none_right_eq_some, Option.some.injEq] at hw
  obtain ⟨hadm, rfl⟩ := hw
  have hall : ∀ d ∈ devices, (d.spec.serialNumber ≠ [] ∧ 0 < d.spec.totalCapacity ∧ d.spec.totalCapacity ≤ maxInt64) ∧
      ∀ k ∈ devices.map (·.spec) ++ w.known, k.nodeName = d.spec.nodeName → k.serialNumber = d.spec.serialNumber →
        k.totalCapacity ≤ d.spec.totalCapacity := by
    intro d hd
    have := List.all_eq_true.1 hadm d hd
    simp only [Bool.and_eq_true, decide_eq_true_eq, List.all_eq_true, Bool.or_eq_true, Bool.not_eq_true',
      Bool.and_eq_false_iff, decide_eq_false_iff_not] at this
    obtain ⟨⟨⟨hserial, hpos⟩, hmax⟩, hgrown⟩ := this
    refine ⟨⟨hserial, hpos, hmax⟩, fun k hk hkn hks => ?_⟩
    rcases hgrown k hk with (hne | hne) | hle
    · exact absurd hkn hne
    · exact absurd hks hne
    · exact hle
  refine ⟨⟨h.ok, h.locks, fun d hd => ?_, fun k hk => ?_, fun d hd => (hall d hd).2, h.sizes, fun node serial hne => ?_⟩,
    .refl _, List.subset_append_right _ _, rfl, rfl, fun serial _ => le_refl (allocated _ w.partitions.objects)⟩
  · exact List.mem_append_left _ (List.mem_map_of_mem hd)
  · rcases List.mem_append.1 hk with hnew | hold
    · obtain ⟨d, hd, rfl⟩ := List.mem_map.1 hnew
      exact (hall d hd).1
    · exact h.range k hold
  · rcases h.fits node serial hne with hzero | ⟨k, hk, hrest⟩
    · exact .inl hzero
    · exact .inr ⟨k, List.mem_append_right _ hk, hrest⟩

theorem Inv.change (h : Inv w) {ch : Change} (hw : w.change ch = some w') : Inv w' ∧ Aside w w' := by
  cases ch with
  | create uid obj => exact h.create hw
  | report devices => exact h.report hw
  | delete key =>
    cases hw
    unfold Store.delete
    cases hf : w.partitions.find key with
    | none => exact ⟨h, .refl _, fun _ hk => hk, rfl, rfl, fun serial _ => le_refl (allocated _ w.partitions.objects)⟩
    | some p =>
      have hv : ∀ q, p.delete.map w.partitions.stamp = some q → q.key = key ∧
          q.metadata.resourceVersion = w.partitions.version + 1 ∧ Alike q.spec p.spec := by
        intro q hq
        obtain ⟨q0, hq0, rfl⟩ := Option.map_eq_some_iff.1 hq
        obtain ⟨-, -, -, -, -, hk, hspec, -⟩ := delete_eq_some hq0
        refine ⟨hk.trans (Store.mem_of_find hf).2, rfl, ?_⟩
        rw [show (w.partitions.stamp q0).spec = p.spec from hspec]
        exact ⟨rfl, rfl, rfl⟩
      obtain ⟨hi, hs⟩ := h.put_alike hf hv
      exact ⟨hi, Store.evolves_put fun q hq => (hv q hq).2.1, fun _ hk => hk, rfl, rfl, fun serial _ => hs serial⟩
  | write obj =>
    obtain ⟨p, hf, rfl⟩ := Option.map_eq_some_iff.1 hw
    have hv : ∀ q, (w.written p obj).settle = some q → q.key = obj.key ∧
        q.metadata.resourceVersion = w.partitions.version + 1 ∧ Alike q.spec p.spec := by
      intro q hq
      rw [settle_eq_some hq]
      exact ⟨(Store.mem_of_find hf).2, rfl, rfl, rfl, rfl⟩
    obtain ⟨hi, hs⟩ := h.put_alike hf hv
    exact ⟨hi, Store.evolves_put fun q hq => (hv q hq).2.1, fun _ hk => hk, rfl, rfl, fun serial _ => hs serial⟩

/-! ### What a run counts on -/

/-- The run holds the lock of the serial. -/
def Holds (j : Job) (serial : Str) (w : World) : Prop := ⟨j.manager, serial, j.key⟩ ∈ w.locks

/-- What others may do: nobody adds to a serial whose lock the run holds. -/
structure Rely (j : Job) (w w' : World) : Prop where
  evolves : w.partitions.Evolves w'.partitions
  known : w.known ⊆ w'.known
  shown : w'.shown.lookup j.key = w.shown.lookup j.key
  held : ∀ serial, Holds j serial w → Holds j serial w' ∧ (serial ≠ [] → Shrinks serial w w')

/-- What a run does: it adds only to a serial whose lock it holds. -/
structure Guar (j : Job) (w w' : World) : Prop where
  evolves : w.partitions.Evolves w'.partitions
  known : w.known ⊆ w'.known
  shown : ∀ key, key ≠ j.key → w'.shown.lookup key = w.shown.lookup key
  locks : ∀ l ∈ w.locks, l.holder ≠ j.key → l ∈ w'.locks
  shrinks : ∀ serial, serial ≠ [] → ¬ Holds j serial w → Shrinks serial w w'

variable {j : Job}

theorem Rely.refl (j : Job) (w : World) : Rely j w w :=
  ⟨.refl _, fun _ hk => hk, rfl, fun _ hh => ⟨hh, fun _ => le_refl (allocated _ w.partitions.objects)⟩⟩

theorem Rely.trans {a b c : World} (h : Rely j a b) (h' : Rely j b c) : Rely j a c := by
  refine ⟨h.evolves.trans h'.evolves, List.Subset.trans h.known h'.known, h'.shown.trans h.shown, fun serial hh => ?_⟩
  obtain ⟨hb, hab⟩ := h.held serial hh
  obtain ⟨hc, hbc⟩ := h'.held serial hb
  exact ⟨hc, fun hne => le_trans (hbc hne) (hab hne)⟩

theorem Guar.refl (j : Job) (w : World) : Guar j w w :=
  ⟨.refl _, fun _ hk => hk, fun _ _ => rfl, fun _ hl _ => hl,
    fun _ _ _ => le_refl (allocated _ w.partitions.objects)⟩

theorem Aside.rely (h : Aside w w') (j : Job) : Rely j w w' := by
  refine ⟨h.evolves, h.known, by rw [h.shown], fun serial hh => ⟨?_, h.shrinks serial⟩⟩
  unfold Holds at *
  rw [h.locks]
  exact hh

theorem Inv.holder_eq (h : Inv w) {l l' : Lock} (hl : l ∈ w.locks) (hl' : l' ∈ w.locks)
    (hm : l.manager = l'.manager) (hn : l.name = l'.name) : l = l' :=
  List.inj_on_of_nodup_map h.locks hl hl' (Prod.ext hm hn)

theorem Guar.rely {i : Job} (h : Guar i w w') (hi : Inv w) (hm : i.manager = j.manager) (hk : i.key ≠ j.key) :
    Rely j w w' := by
  refine ⟨h.evolves, h.known, h.shown j.key hk.symm, fun serial hh => ⟨h.locks _ hh hk.symm, fun hne => ?_⟩⟩
  refine h.shrinks serial hne fun hi' => hk ?_
  exact congrArg Lock.holder (hi.holder_eq hi' hh hm rfl)

/-! ### What a run knows -/

/-- The bytes that the run wants come from the size that it was shown first. -/
def Asked (j : Job) (bytes : ℤ) (w : World) : Prop :=
  ∃ size, w.shown.lookup j.key = some size ∧ Capacity.roundUp size = .ok bytes

variable {bytes : ℤ}

theorem Asked.rely (h : Asked j bytes w) (hr : Rely j w w') : Asked j bytes w' := by
  obtain ⟨size, hs, hb⟩ := h
  exact ⟨size, hr.shown.trans hs, hb⟩

/-- Within the lock of a serial. -/
structure Within (j : Job) (serial : Str) (bytes : ℤ) (w : World) : Prop where
  holds : Holds j serial w
  asked : Asked j bytes w

theorem Within.rely (h : Within j serial bytes w) (hr : Rely j w w') : Within j serial bytes w' :=
  ⟨(hr.held serial h.holds).1, h.asked.rely hr⟩

/-- **There is room on the device**, and there will be as long as the lock is held. -/
structure Room (j : Job) (device : NVMeDeviceSpec) (bytes : ℤ) (w : World) : Prop where
  within : Within j device.serialNumber bytes w
  known : device ∈ w.known
  serial : device.serialNumber ≠ []
  room : allocated (onSerial device.serialNumber) w.partitions.objects + bytes ≤ device.totalCapacity

theorem Room.rely {device : NVMeDeviceSpec} (h : Room j device bytes w) (hr : Rely j w w') :
    Room j device bytes w' := by
  refine ⟨h.within.rely hr, hr.known h.known, h.serial, ?_⟩
  have hle : allocated (onSerial device.serialNumber) w'.partitions.objects ≤
      allocated (onSerial device.serialNumber) w.partitions.objects := (hr.held _ h.within.holds).2 h.serial
  have := h.room
  omega

/-! ### The two writes -/

theorem patch_served (h : Inv w) (j : Job) (base obj : NVMePartition) :
    Inv (w.patchStatus base obj).2 ∧ Guar j w (w.patchStatus base obj).2 ∧
      (∀ serial, Shrinks serial w (w.patchStatus base obj).2) ∧
      ∀ q, (w.patchStatus base obj).1 = .ok q → q.key = obj.key ∧ Store.Pins q (w.patchStatus base obj).2.partitions := by
  unfold World.patchStatus
  rcases Store.patchStatus_cases (s := w.partitions) NVMePartitionStatus.merge base obj with
    ⟨-, heq⟩ | ⟨p, hf, heq⟩
  · rw [heq]
    exact ⟨h, .refl j w, fun _ => le_refl (allocated _ w.partitions.objects), by rintro q ⟨⟩⟩
  · rw [heq]
    obtain ⟨hp, hpk⟩ := Store.mem_of_find hf
    obtain ⟨hi, hs⟩ := h.put_alike (v := some (w.partitions.stamp
      { p with status := NVMePartitionStatus.merge base.status obj.status p.status })) hf
      (by rintro q ⟨⟩; exact ⟨hpk, rfl, rfl, rfl, rfl⟩)
    refine ⟨hi, ⟨Store.evolves_put (by rintro q ⟨⟩; rfl), fun _ hk => hk, fun _ _ => rfl, fun _ hl _ => hl,
      fun serial _ _ => hs serial⟩, hs, ?_⟩
    rintro q ⟨⟩
    exact ⟨hpk, hi.ok.pins (Store.mem_put.2 (.inr ⟨rfl, p, hp, hpk⟩))⟩

/-- **The update of a run** fills the room that it has found. -/
theorem update_served (h : Inv w) {ref : ClaimRef}
    (hroom : Room j device.spec bytes w) (hpk : p.key = j.key) (hpins : Store.Pins p w.partitions)
    (hsize : notLarger j (.api (.update .partition (withPlacement p device ref))) w = true) :
    Inv (w.update (withPlacement p device ref)).2 ∧ Guar j w (w.update (withPlacement p device ref)).2 := by
  have hkey : (withPlacement p device ref).key = j.key := hpk
  unfold World.update
  rcases Store.update_cases (s := w.partitions) (o := withPlacement p device ref)
    (fun old new => decide (new.size = old.size)) with ⟨err, heq⟩ | ⟨stored, hf, hv, -, heq⟩
  · rw [heq]
    exact ⟨h, .refl j w⟩
  · rw [heq]
    obtain ⟨hs, hsk⟩ := Store.mem_of_find hf
    obtain rfl : stored = p := hpins.2 stored hs (hsk.trans rfl) hv.symm
    -- it takes no more than the run has asked for
    obtain ⟨size, hshown, hbytes⟩ := hroom.within.asked
    obtain ⟨took, htook⟩ := h.sizes stored hs
    have hle : rounded stored.spec.size ≤ bytes := by
      have hf' : w.partitions.find j.key = some stored := by rw [← hkey]; exact hf
      simp only [notLarger, hkey, hf', Option.all_some, hshown, Option.any_some, decide_eq_true_eq] at hsize
      rw [rounded_eq htook]
      exact Capacity.roundUp_mono htook hbytes hsize
    have hnew : ∀ q, (w.partitions.updated stored (withPlacement stored device ref)).settle = some q →
        q = w.partitions.updated stored (withPlacement stored device ref) := fun q hq => settle_eq_some hq
    have hserial : allocated (onSerial device.spec.serialNumber) (w.partitions.put (withPlacement stored device ref).key
        (w.partitions.updated stored (withPlacement stored device ref)).settle).objects ≤ device.spec.totalCapacity := by
      have hadd := allocated_put_add (onSerial device.spec.serialNumber) h.ok hf hnew
      have hweight : weight (onSerial device.spec.serialNumber)
          (w.partitions.updated stored (withPlacement stored device ref)) ≤ rounded stored.spec.size := weight_le _ _
      have := hroom.room
      omega
    refine ⟨⟨?_, h.locks, h.devices, h.range, h.grown, ?_, ?_⟩, ?_⟩
    · refine h.ok.put fun q hq => ?_
      rw [hnew q hq]
      exact ⟨hsk, rfl⟩
    · intro q hq
      rcases Store.mem_put.1 hq with ⟨hold, -⟩ | ⟨hput, -⟩
      · exact h.sizes q hold
      · rw [hnew q hput]
        exact ⟨took, htook⟩
    · intro node serial hne
      by_cases hsame : node = device.spec.nodeName ∧ serial = device.spec.serialNumber
      · obtain ⟨rfl, rfl⟩ := hsame
        exact .inr ⟨device.spec, hroom.known, rfl, rfl, (allocated_onDevice_le _ _ _).trans hserial⟩
      -- the other devices have not got more
      have hthis : allocated (onDevice node serial) (w.partitions.put (withPlacement stored device ref).key
          (w.partitions.updated stored (withPlacement stored device ref)).settle).objects ≤
          allocated (onDevice node serial) w.partitions.objects := by
        refine allocated_put_le h.ok hf fun q hq => ?_
        rw [hnew q hq, weight_onDevice_of_ne fun he => hsame ⟨he.1.symm, he.2.symm⟩]
        exact weight_nonneg _ _
      rcases h.fits node serial hne with hzero | ⟨k, hk, hkn, hks, hfit⟩
      · exact .inl (hthis.trans hzero)
      · exact .inr ⟨k, hk, hkn, hks, hthis.trans hfit⟩
    · refine ⟨Store.evolves_put fun q hq => ?_, fun _ hk => hk, fun _ _ => rfl, fun _ hl _ => hl, ?_⟩
      · rw [hnew q hq]
        rfl
      · intro serial hne hnot
        have hother : serial ≠ device.spec.serialNumber := by
          rintro rfl
          exact hnot hroom.within.holds
        refine allocated_put_le h.ok hf fun q hq => ?_
        rw [hnew q hq, weight_onSerial_of_ne fun he => hother he.symm]
        exact weight_nonneg _ _

/-! ### The locks -/

theorem Inv.lock (h : Inv w) (hw : w.lock j.manager serial j.key = some w') :
    Inv w' ∧ Guar j w w' ∧ Holds j serial w' ∧ w'.shown = w.shown := by
  simp only [World.lock, Option.ite_none_left_eq_some, Option.some.injEq] at hw
  obtain ⟨hfree, rfl⟩ := hw
  refine ⟨⟨h.ok, ?_, h.devices, h.range, h.grown, h.sizes, h.fits⟩,
    ⟨.refl _, fun _ hk => hk, fun _ _ => rfl, fun _ hl _ => List.mem_cons_of_mem _ hl,
      fun _ _ _ => le_refl (allocated _ w.partitions.objects)⟩, List.mem_cons_self, rfl⟩
  rw [List.map_cons, List.nodup_cons]
  refine ⟨fun hm => hfree ?_, h.locks⟩
  obtain ⟨l, hl, heq⟩ := List.mem_map.1 hm
  obtain ⟨hm', hn⟩ := Prod.mk.inj heq
  exact List.any_eq_true.2 ⟨l, hl, by simp [hm', hn]⟩

theorem Inv.unlock (h : Inv w) (hh : Holds j serial w) :
    Inv (w.unlock j.manager serial) ∧ Guar j w (w.unlock j.manager serial) := by
  refine ⟨⟨h.ok, ?_, h.devices, h.range, h.grown, h.sizes, h.fits⟩,
    ⟨.refl _, fun _ hk => hk, fun _ _ => rfl, fun l hl hne => ?_,
      fun _ _ _ => le_refl (allocated _ w.partitions.objects)⟩⟩
  · exact h.locks.sublist (List.filter_sublist.map _)
  · -- only the lock of the run itself is dropped
    refine List.mem_filter.2 ⟨hl, ?_⟩
    by_contra hdrop
    simp only [Bool.not_eq_true, Bool.not_eq_false', Bool.and_eq_true, decide_eq_true_eq] at hdrop
    exact hne (congrArg Lock.holder (h.holder_eq hl hh hdrop.1 hdrop.2))

/-! ### The calls of a run -/

section

variable [StdLib]

def outline : Outline (machine.guarded notLarger).system where
  Inv := Inv
  Rely := Rely
  Guar := Guar
  Req _ _ _ := True
  Post _ _ _ := True
  rely_refl := .refl
  rely_trans _ := .trans
  init := by
    rintro w ⟨hp, hd, hk, hl⟩
    refine ⟨⟨by simp [hp], by simp [hp]⟩, by simp [hl], by simp [hd], by simp [hk], by simp [hd], by simp [hp], ?_⟩
    intro node serial _
    exact .inl (by simp [hp, allocated])
  env := by
    rintro w w' hi ⟨ch, hw⟩
    obtain ⟨hi', ha⟩ := hi.change hw
    exact ⟨hi', ha.rely⟩
  guar i j w w' htog hi _ hg := by
    simp only [Machine.system, Machine.guarded, machine, Bool.and_eq_true, decide_eq_true_eq] at htog
    exact hg.rely hi htog.1 htog.2

section

omit [StdLib]

/-- A call that changes nothing. -/
def reads : Call → Bool
  | .api (.get _ .api _) | .api (.list _ _) | .proc .now => true
  | _ => false

theorem reads_of_asks (c : Call) (hc : asks .api c = true) : reads c = true := by
  unfold asks at hc
  split at hc
  · cases of_decide_eq_true hc
    rfl
  · rfl
  · rfl
  · cases hc

theorem eq_of_reads {ch : Choice} {c : Call} {r : c.Resp} (hc : reads c = true) (ha : answer ch j c w = some (r, w')) :
    w' = w := by
  unfold answer at ha
  split at ha
  all_goals first
    | exact absurd hc Bool.false_ne_true
    | exact (Fate.answerWith_state ha).elim id id
    | (cases ha; rfl)
    | cases ha

end

theorem look_safe {c : Call} {Q : c.Resp → World → Prop} (hc : reads c = true)
    (hQ : ∀ r w1 w2, Q r w1 → Rely j w1 w2 → Q r w2)
    (hlook : ∀ ch w1 r, Rely j w w1 → Inv w1 → answer ch j c w1 = some (r, w1) → Q r w1) :
    outline.Safe j Q (.call c .ret) w := by
  refine Outline.call (fun _ _ _ => trivial) hQ fun ch w1 r w2 hr hi _ ha => ?_
  obtain rfl := eq_of_reads hc ha
  exact ⟨hi, .refl j _, hlook ch _ r hr hi ha⟩

variable {I : World → Prop}

theorem reading_safe {α : Type} {p : Proc α} (hp : p.Only (reads ·)) (hw : I w)
    (hI : ∀ w1 w2, I w1 → Rely j w1 w2 → I w2) : outline.Safe j (fun _ => I) p w := by
  refine .of_only hp hw hI (fun _ _ _ _ _ => trivial) ?_
  intro c w1 r w2 hc hi hI1 hs
  obtain ⟨-, ch, ha⟩ := (Machine.sem_guarded machine).1 hs
  obtain rfl := eq_of_reads hc ha
  exact ⟨hi, .refl j _, hI1⟩

/-! ### A reservation -/

/-- The device that was read: it was reported so. -/
structure Chosen (device : NVMeDeviceSpec) (w : World) : Prop where
  known : device ∈ w.known
  serial : device.serialNumber ≠ []
  pos : 0 < device.totalCapacity
  max : device.totalCapacity ≤ maxInt64

omit [StdLib] in
theorem Chosen.rely {device : NVMeDeviceSpec} (h : Chosen device w) (hr : Rely j w w') : Chosen device w' :=
  ⟨hr.known h.known, h.serial, h.pos, h.max⟩

variable {bytes : ℤ}

theorem persistPlacement_safe {p : NVMePartition} {ref : ClaimRef}
    (hroom : Room j device.spec bytes w) (hk : p.key = j.key) :
    outline.Safe j (fun _ => Within j device.spec.serialNumber bytes) (persistPlacement p device ref) w := by
  have hret : ∀ (r : Except Err Bool) w1, Within j device.spec.serialNumber bytes w1 →
      outline.Safe j (fun _ => Within j device.spec.serialNumber bytes) (.ret r) w1 :=
    fun r w1 h1 => .keep h1 fun _ _ h hr => h.rely hr
  refine .andThen (Outline.call (Q := fun (r : Except Err NVMePartition) w1 => Room j device.spec bytes w1 ∧
    ∀ q, r = .ok q → q.key = j.key ∧ Store.Pins q w1.partitions) (fun _ _ _ => trivial) ?_ ?_)
    (fun _ w1 h1 => hret _ w1 h1.1.within) fun q w1 h1 => ?_
  · rintro r w1 w2 ⟨h1, hq⟩ hr
    exact ⟨h1.rely hr, fun q hrq => ⟨(hq q hrq).1, (hq q hrq).2.evolves hr.evolves⟩⟩
  · intro ch w1 r w2 hr hi _ ha
    have h1 := hroom.rely hr
    obtain ⟨hi', hg', hs', hq'⟩ := patch_served hi j (withPlacement p device ref)
      (withAuthorization (withPlacement p device ref))
    have hroom' : Room j device.spec bytes
        (w1.patchStatus (withPlacement p device ref) (withAuthorization (withPlacement p device ref))).2 := by
      refine ⟨⟨h1.within.holds, h1.within.asked⟩, h1.known, h1.serial, ?_⟩
      have hle := hs' device.spec.serialNumber
      have hroom := h1.room
      unfold Shrinks at hle
      omega
    rcases Fate.answerWith_cases ha with ⟨rfl, rfl⟩ | ⟨err, rfl, -, hw⟩
    · exact ⟨hi', hg', hroom', fun q hrq => ⟨(hq' q hrq).1.trans hk, (hq' q hrq).2⟩⟩
    rcases hw with rfl | rfl
    · exact ⟨hi, .refl j _, h1, by rintro q ⟨⟩⟩
    · exact ⟨hi', hg', hroom', by rintro q ⟨⟩⟩
  · obtain ⟨hqk, hpins⟩ := h1.2 q rfl
    refine .andThen (Outline.call (Q := fun _ => Within j device.spec.serialNumber bytes) (fun _ _ _ => trivial)
      (fun _ _ _ h hr => h.rely hr) fun ch w2 r w3 hr hi hsize ha => ?_) (fun _ => hret _) fun _ => hret _
    have h2 := h1.1.rely hr
    obtain ⟨hi', hg'⟩ := update_served hi h2 hqk (hpins.evolves hr.evolves) hsize
    rcases Fate.answerWith_state ha with rfl | rfl
    · exact ⟨hi, .refl j _, h2.within⟩
    · exact ⟨hi', hg', h2.within.holds, h2.within.asked⟩

omit [StdLib] in
theorem room_of_available {free bytes : ℤ} (hin : Within j device.spec.serialNumber bytes w) (hd : Chosen device.spec w)
    (hps : allocated (onSerial device.spec.serialNumber) w.partitions.objects ≤
      allocated (onSerial device.spec.serialNumber) ps)
    (hfree : availableCapacity device ps = .ok free) (hle : ¬ free < bytes) : Room j device.spec bytes w := by
  refine ⟨hin, hd.known, hd.serial, ?_⟩
  obtain ⟨size, -, hsize⟩ := hin.asked
  have hpos := (Capacity.roundUp_pos hsize).1
  have heq := availableCapacity_ok hfree hd.pos hd.max
  have hmax := max_cases (device.spec.totalCapacity - allocated (onSerial device.spec.serialNumber) ps) 0
  omega

theorem getPartition_safe {serial : Str} (hw : Within j serial bytes w) :
    outline.Safe j (fun r w1 => Within j serial bytes w1 ∧ ∀ p, r = .ok p → p.key = j.key) (get .partition .api j.key) w := by
  refine look_safe rfl (fun _ _ _ h hr => ⟨h.1.rely hr, h.2⟩) fun ch w1 r hr _ ha => ⟨hw.rely hr, ?_⟩
  rintro p rfl
  exact (Store.mem_of_find (found_eq_ok (Prod.mk.inj (Fate.answerWith_ok ha)).1)).2

theorem getDevice_safe {key : Key} {serial : Str} (hw : Within j serial bytes w) : outline.Safe j
    (fun r w1 => Within j serial bytes w1 ∧ ∀ d, r = .ok d → Chosen d.spec w1) (get .device .api key) w := by
  refine look_safe rfl (fun _ _ _ h hr => ⟨h.1.rely hr, fun d hd => (h.2 d hd).rely hr⟩) fun ch w1 r hr hi ha =>
    ⟨hw.rely hr, ?_⟩
  rintro d rfl
  have hfound := found_eq_ok (Prod.mk.inj (Fate.answerWith_ok ha)).1
  have hknown := hi.devices _ (List.mem_of_find?_eq_some hfound)
  obtain ⟨hserial, hpos, hmax⟩ := hi.range _ hknown
  exact ⟨hknown, hserial, hpos, hmax⟩

theorem listPartitions_safe {device : NVMeDeviceSpec} (hw : Within j device.serialNumber bytes w) (hd : Chosen device w) :
    outline.Safe j (fun r w1 => Within j device.serialNumber bytes w1 ∧ Chosen device w1 ∧
      ∀ ps, r = .ok ps → allocated (onSerial device.serialNumber) w1.partitions.objects ≤
        allocated (onSerial device.serialNumber) ps) (list .partition .api) w := by
  refine look_safe rfl ?_ fun ch w1 r hr _ ha => ⟨hw.rely hr, hd.rely hr, ?_⟩
  · rintro r w1 w2 ⟨hin, hc, hle⟩ hr
    refine ⟨hin.rely hr, hc.rely hr, fun ps hps => ?_⟩
    exact le_trans ((hr.held _ hin.holds).2 hc.serial) (hle ps hps)
  · rintro ps rfl
    obtain rfl := Except.ok.inj (Prod.mk.inj (Fate.answerWith_ok ha)).1
    exact le_rfl

theorem reserveOnce_safe {candidate : PlacementCandidate} (hw : Within j candidate.serial bytes w) :
    outline.Safe j (fun _ => Within j candidate.serial bytes) (reserveOnce .api j.key candidate bytes) w := by
  have hret : ∀ (r : Except Err Bool) w1, Within j candidate.serial bytes w1 →
      outline.Safe j (fun _ => Within j candidate.serial bytes) (.ret r) w1 :=
    fun r w1 h1 => .keep h1 fun _ _ h hr => h.rely hr
  refine .andThen (getPartition_safe hw) (fun _ w1 h1 => ?_) fun p w1 ⟨h1, hkey⟩ => ?_
  · split <;> exact hret _ w1 h1.1
  split
  · exact hret _ w1 h1
  refine .andThen (getDevice_safe h1) (fun _ w2 h2 => ?_) fun device w2 ⟨h2, hdevice⟩ => ?_
  · split <;> exact hret _ w2 h2.1
  split
  · exact hret _ w2 h2
  rename_i hmatch
  have hserial : device.spec.serialNumber = candidate.serial := not_not.1 fun h => hmatch (.inl h)
  -- from here on the serial is the one of the device
  rw [← hserial] at h2 hret ⊢
  have hstable : ∀ w3 w4, Within j device.spec.serialNumber bytes w3 ∧ Chosen device.spec w3 → Rely j w3 w4 →
      Within j device.spec.serialNumber bytes w4 ∧ Chosen device.spec w4 :=
    fun _ _ h hr => ⟨h.1.rely hr, h.2.rely hr⟩
  refine .andThen (reading_safe (liveClaimOwnsDevice_only reads_of_asks device) ⟨h2, hdevice device rfl⟩ hstable)
    (fun _ w3 h3 => hret _ w3 h3.1) fun owned w3 h3 => ?_
  split
  · exact hret _ w3 h3.1
  refine .andThen (reading_safe (only_op rfl) h3 hstable) (fun _ w4 h4 => hret _ w4 h4.1) fun rdmaNode w4 h4 => ?_
  refine .bind ((reading_safe (only_op rfl) h4 hstable).conseq fun t w5 _ h5 => ?_)
  split
  · exact hret _ w5 h5.1
  refine .andThen (listPartitions_safe h5.1 h5.2) (fun _ w6 h6 => hret _ w6 h6.1) fun partitions w6 ⟨h6, hchosen, hsum⟩ => ?_
  split
  · exact hret _ w6 h6
  rename_i free hfree
  split
  · exact hret _ w6 h6
  rename_i hle
  split
  · exact .call (fun _ _ _ => trivial) fun _ r => r.elim
  · have hroom := room_of_available h6 hchosen (hsum partitions rfl) hfree hle
    exact persistPlacement_safe hroom (hkey p rfl)

theorem reserveCandidate_safe {candidate : PlacementCandidate} (hw : Asked j bytes w) :
    outline.Safe j (fun _ => Asked j bytes) (reserveCandidate .api j.key candidate bytes) w := by
  have hin : ∀ w1 w2, Within j candidate.serial bytes w1 → Rely j w1 w2 → Within j candidate.serial bytes w2 :=
    fun _ _ h hr => h.rely hr
  refine .bind ((Outline.call (Q := fun _ => Within j candidate.serial bytes) (fun _ _ _ => trivial) (fun _ => hin)
    ?_).conseq fun _ w1 _ h1 => ?_)
  · intro ch w1 r w2 hr hi _ ha
    obtain ⟨w', hlock, heq⟩ := Option.map_eq_some_iff.1 ha
    obtain rfl : w' = w2 := (Prod.mk.inj heq).2
    obtain ⟨hi', hg, hh, hshown⟩ := hi.lock hlock
    refine ⟨hi', hg, hh, ?_⟩
    obtain ⟨size, hs, hb⟩ := hw.rely hr
    exact ⟨size, by rw [hshown]; exact hs, hb⟩
  · refine .bind ((retryOnConflict_safe h1 hin (fun _ => reserveOnce_safe) _).conseq fun r w2 _ h2 => ?_)
    refine .bind ((Outline.call (Q := fun _ => Asked j bytes) (fun _ _ _ => trivial) (fun _ _ _ h hr => h.rely hr)
      ?_).conseq fun _ w3 _ h3 => ?_)
    · intro ch w3 r w4 hr hi _ ha
      obtain rfl : w3.unlock j.manager candidate.serial = w4 := (Prod.mk.inj (Option.some.inj ha)).2
      have h3 := h2.rely hr
      obtain ⟨hi', hg⟩ := hi.unlock h3.holds
      exact ⟨hi', hg, h3.asked⟩
    · exact .keep h3 fun _ _ h hr => h.rely hr

theorem tryCandidates_safe {candidates : List PlacementCandidate} (hw : Asked j bytes w) :
    outline.Complies j (tryCandidates .api j.key bytes candidates) w := by
  induction candidates generalizing w with
  | nil => exact .ended
  | cons candidate candidates ih =>
    refine .next (reserveCandidate_safe hw) fun assigned w1 h1 => ?_
    split
    · exact .ended
    · exact ih h1

theorem getCached_safe : outline.Safe j (fun r w1 => ∀ p, r = .ok p → p.key = j.key ∧
    w1.shown.lookup j.key = some p.spec.size) (get .partition .cache j.key) w := by
  refine Outline.call (fun _ _ _ => trivial) (fun r w1 w2 h hr p hp => ⟨(h p hp).1, hr.shown.trans (h p hp).2⟩) ?_
  intro ch w1 r w2 _ hi _ ha
  have hserved : Inv (w1.getCached ch.cached j.key).2 ∧ Guar j w1 (w1.getCached ch.cached j.key).2 ∧
      ∀ p, (w1.getCached ch.cached j.key).1 = .ok p →
        p.key = j.key ∧ (w1.getCached ch.cached j.key).2.shown.lookup j.key = some p.spec.size := by
    unfold World.getCached
    split
    · exact ⟨hi, .refl j w1, by rintro p ⟨⟩⟩
    rename_i p hp
    refine ⟨⟨hi.ok, hi.locks, hi.devices, hi.range, hi.grown, hi.sizes, hi.fits⟩,
      ⟨.refl _, fun _ hk => hk, fun key hne => ?_, fun _ hl _ => hl,
        fun _ _ _ => le_refl (allocated _ w1.partitions.objects)⟩, ?_⟩
    · rw [List.lookup_cons, beq_false_of_ne hne]
    · rintro q ⟨⟩
      refine ⟨?_, by simp⟩
      rcases Option.or_eq_some_iff.1 hp with hcached | ⟨-, hstored⟩
      · simpa using (Option.filter_eq_some_iff.1 hcached).2
      · exact (Store.mem_of_find hstored).2
  rcases Fate.answerWith_cases ha with ⟨rfl, rfl⟩ | ⟨err, rfl, -, hw⟩
  · exact hserved
  rcases hw with rfl | rfl
  · exact ⟨hi, .refl j _, by rintro p ⟨⟩⟩
  · exact ⟨hserved.1, hserved.2.1, by rintro p ⟨⟩⟩

theorem reconcile_safe (j : Job) (w : World) : outline.Complies j (reconcile .api j.key) w := by
  refine .andThen getCached_safe (fun _ _ _ => ?_) fun p w1 hshown => ?_
  · split <;> exact .ended
  obtain ⟨hkey, hsize⟩ := hshown p rfl
  split
  · exact .ended
  split
  · exact .ended
  rename_i bytes hbytes
  refine .next (reading_safe (placementCandidates_only reads_of_asks p bytes) ⟨_, hsize, hbytes⟩ fun _ _ h hr =>
    Asked.rely h hr) fun candidates w2 h2 => ?_
  split
  · exact .ended
  · rw [hkey]
    exact tryCandidates_safe h2

/-- **No device is over-committed.**  In every run in which no partition is larger, when it is placed,
than the one that the run for it was shown first: every size can be rounded, the partitions of a device,
terminating ones included, fit into it, and what is computed from them is computed without a wrap. -/
theorem never_overcommitted {c : Pool Call Call.Resp World Job (Except Err Requeue)}
    (hc : (machine.guarded notLarger).system.Reachable c) :
    (∀ p ∈ c.world.partitions.objects, ∃ bytes, Capacity.roundUp p.spec.size = .ok bytes) ∧
    ∀ d ∈ c.world.devices,
      allocated (onDevice d.spec.nodeName d.spec.serialNumber) c.world.partitions.objects ≤ d.spec.totalCapacity ∧
      (∀ used, allocatedCapacityForDevice c.world.partitions.objects d.spec.serialNumber = .ok used →
        used = allocated (onSerial d.spec.serialNumber) c.world.partitions.objects) ∧
      ∀ free, availableCapacity d c.world.partitions.objects = .ok free →
        free = max (d.spec.totalCapacity - allocated (onSerial d.spec.serialNumber) c.world.partitions.objects) 0 := by
  have hk : outline.Kept c := Outline.Kept.reachable (fun j _ w _ _ => reconcile_safe j w) hc
  have hi : Inv c.world := hk.inv
  refine ⟨hi.sizes, fun d hd => ?_⟩
  obtain ⟨-, hpos, hmax⟩ := hi.range d.spec (hi.devices d hd)
  refine ⟨hi.fits_device hd, fun used hused => ?_, fun free hfree => availableCapacity_ok hfree hpos hmax⟩
  have := (addAllocated_ok hused le_rfl (by decide)).1
  omega

end

/-! ### Runs -/

section

attribute [local instance] asciiLib

/-- The partition `vol` of the given size. -/
def volume (size : ℤ) : NVMePartition where
  metadata := { ns := "ns", name := "vol" }
  spec := { size }
  status := {}

def emptyWorld : World := ⟨⟨[], 0⟩, [], [], [], []⟩

/-- A device of 8 MiB is reported, a partition of 4 MiB is created, and a run has chosen the device. -/
def choosing : List (Act Job Choice) :=
  [.env { change := .report [sampleDevice] }, .env { change := .create (str "u1") (volume 4194304) },
    .start ⟨0, (volume 0).key⟩] ++
  List.replicate 6 (.run 0 { claim := .ok sampleClaim, node := .ok sampleNode, nodes := [sampleNode] })

def reserving : List (Act Job Choice) :=
  List.replicate 10 (.run 0 { claim := .ok sampleClaim, node := .ok sampleNode })

/-- A partition is placed on a device that has room for it. -/
theorem never_overcommitted_placed : ∃ c, (machine.guarded notLarger).system.Reachable c ∧
    ∃ d ∈ c.world.devices,
      allocated (onDevice d.spec.nodeName d.spec.serialNumber) c.world.partitions.objects = 4194304 ∧
      allocated (onDevice d.spec.nodeName d.spec.serialNumber) c.world.partitions.objects ≤ d.spec.totalCapacity := by
  obtain ⟨c, hc, hp⟩ := Machine.exists_reachable (choosing ++ reserving) emptyWorld
    (fun c => c.world.devices.any fun d =>
      allocated (onDevice d.spec.nodeName d.spec.serialNumber) c.world.partitions.objects = 4194304)
    (show (machine.guarded notLarger).init emptyWorld from ⟨rfl, rfl, rfl, rfl⟩) (by decide +kernel)
  obtain ⟨d, hd, htotal⟩ := List.any_eq_true.1 hp
  exact ⟨c, hc, d, hd, of_decide_eq_true htotal, ((never_overcommitted hc).2 d hd).1⟩

/-- The partition is deleted and created again with 16 MiB before the run reserves the device for it. -/
def replacing : List (Act Job Choice) :=
  [.env { change := .delete (volume 0).key }, .env { change := .create (str "u2") (volume 16777216) }]

/-- **A device is over-committed.** -/
theorem overcommitted : ∃ c, machine.system.Reachable c ∧ ∃ d ∈ c.world.devices,
    d.spec.totalCapacity < allocated (onDevice d.spec.nodeName d.spec.serialNumber) c.world.partitions.objects := by
  obtain ⟨c, hc, hp⟩ := Machine.exists_reachable (choosing ++ replacing ++ reserving) emptyWorld
    (fun c => c.world.devices.any fun d => d.spec.totalCapacity <
      allocated (onDevice d.spec.nodeName d.spec.serialNumber) c.world.partitions.objects)
    (show machine.init emptyWorld from ⟨rfl, rfl, rfl, rfl⟩) (by decide +kernel)
  obtain ⟨d, hd, hlt⟩ := List.any_eq_true.1 hp
  exact ⟨c, hc, d, hd, of_decide_eq_true hlt⟩

end

end Distort.Manager.Commitment
