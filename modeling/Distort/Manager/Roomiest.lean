import Mathlib.Algebra.BigOperators.Group.List.Basic
import Distort.Manager.Alone

/-!
A placement goes to the device with the most room.

`placementCandidates` collects and sorts the devices, and `reserveCandidate` looks at the first one again under its
lock.  Both look at the same devices: those that are `Eligible`.

* `placement_roomiest` — a `Reconcile` that is alone places the partition on the eligible device with the most free
  bytes, of several such devices on the one with the smallest key, and changes nothing else; if no device is eligible,
  it changes nothing at all.
-/

namespace Distort.Manager

open Go Lib Lib.Kube Lib.Prog Api Proc Agreement Commitment
open Cluster (alone)

/-! ### The order of the candidates -/

theorem lexLe_iff (a b : Str) : lexLe a b = true ↔ a ≤ b := by
  induction a generalizing b with
  | nil => simp [lexLe]
  | cons x a ih =>
    cases b with
    | nil => simp [lexLe]
    | cons y b => simp [lexLe, ih, List.cons_le_cons_iff]

theorem PlacementCandidate.le_iff (a b : PlacementCandidate) : a.le b = true ↔
    b.freeBytes < a.freeBytes ∨ a.freeBytes = b.freeBytes ∧ a.key.string ≤ b.key.string := by
  unfold PlacementCandidate.le
  split
  · rename_i heq
    rw [lexLe_iff]
    simp [heq]
  · rename_i hne
    simp [hne]

instance : Std.Total fun a b : PlacementCandidate => a.le b = true where
  total a b := by
    rw [PlacementCandidate.le_iff, PlacementCandidate.le_iff]
    rcases lt_trichotomy a.freeBytes b.freeBytes with hlt | heq | hgt
    · exact .inr (.inl hlt)
    · rcases List.le_total a.key.string b.key.string with hle | hle
      · exact .inl (.inr ⟨heq, hle⟩)
      · exact .inr (.inr ⟨heq.symm, hle⟩)
    · exact .inl (.inl hgt)

instance : IsTrans PlacementCandidate fun a b => a.le b = true where
  trans a b c hab hbc := by
    rw [PlacementCandidate.le_iff] at hab hbc ⊢
    rcases hab with hab | ⟨hab, hle⟩
    · rcases hbc with hbc | ⟨hbc, -⟩
      · exact .inl (hbc.trans hab)
      · exact .inl (hbc ▸ hab)
    · rcases hbc with hbc | ⟨hbc, hle'⟩
      · exact .inl (hab ▸ hbc)
      · exact .inr ⟨hab.trans hbc, List.le_trans hle hle'⟩

/-- The first candidate has no fewer bytes than any other one, and comes first among those that have as many. -/
theorem sorted_head {candidates rest : List PlacementCandidate} {c : PlacementCandidate}
    (h : candidates.insertionSort (fun a b => a.le b = true) = c :: rest) :
    c ∈ candidates ∧ ∀ c' ∈ candidates, c' = c ∨ c.le c' = true := by
  have hperm := List.perm_insertionSort (fun a b : PlacementCandidate => a.le b = true) candidates
  have hsorted := List.pairwise_insertionSort (fun a b : PlacementCandidate => a.le b = true) candidates
  rw [h] at hperm hsorted
  refine ⟨hperm.subset List.mem_cons_self, fun c' hc' => ?_⟩
  rcases List.mem_cons.1 (hperm.symm.subset hc') with rfl | hrest
  · exact .inl rfl
  · exact .inr (List.rel_of_pairwise_cons hsorted hrest)

/-! ### Room -/

/-- What is left of the device. -/
def free (w : Cluster) (d : NVMeDevice) : ℤ :=
  d.spec.totalCapacity - allocated (onSerial d.spec.serialNumber) w.partitions.objects

theorem roundUp_valid {size : ℤ} (h : (Capacity.roundUp size).toBool = true) : ∃ bytes, Capacity.roundUp size = .ok bytes := by
  cases hround : Capacity.roundUp size with
  | error err =>
    rw [hround] at h
    cases h
  | ok bytes => exact ⟨bytes, rfl⟩

variable {ps : List NVMePartition}

theorem addAllocated_eq {serial : Str} {used : ℤ}
    (hsizes : ∀ p ∈ ps, (Capacity.roundUp p.spec.size).toBool = true) (h0 : 0 ≤ used)
    (hmax : used + allocated (onSerial serial) ps ≤ maxInt64) :
    addAllocated serial ps used = .ok (used + allocated (onSerial serial) ps) := by
  induction ps generalizing used with
  | nil => simp [addAllocated, allocated]
  | cons p ps ih =>
    have hcons : allocated (onSerial serial) (p :: ps) = weight (onSerial serial) p + allocated (onSerial serial) ps := by
      simp [allocated]
    have hrest := allocated_nonneg (onSerial serial) ps
    have hint : maxInt64 = 9223372036854775807 := rfl
    rw [hcons] at hmax ⊢
    simp only [addAllocated]
    by_cases hserial : p.spec.parentDeviceSerialNumber = serial
    · obtain ⟨bytes, hbytes⟩ := roundUp_valid (hsizes p List.mem_cons_self)
      have hw : weight (onSerial serial) p = bytes := by
        simp [Commitment.weight, onSerial, hserial, rounded_eq hbytes]
      obtain ⟨hpos, hbig⟩ := Capacity.roundUp_pos hbytes
      rw [hw] at hmax ⊢
      rw [if_neg (not_not.2 hserial), hbytes]
      dsimp only
      rw [i64_of_range (by omega) (by omega), if_neg (by omega), i64_of_range (by omega) (by omega)]
      rw [ih (fun q hq => hsizes q (List.mem_cons_of_mem p hq)) (by omega) (by omega), add_assoc]
    · rw [if_pos hserial, weight_onSerial_of_ne hserial, zero_add]
      rw [weight_onSerial_of_ne hserial, zero_add] at hmax
      exact ih (fun q hq => hsizes q (List.mem_cons_of_mem p hq)) h0 hmax

/-! ### The devices that can take a partition -/

section eligible

variable [StdLib] {times : Set ℤ} {w : Cluster} {p : NVMePartition} {d : NVMeDevice}

/-- What the API server guarantees of the objects, and what is asked of the sizes. -/
structure Sound (w : Cluster) : Prop where
  partitions : w.partitions.Ok
  devices : w.devices.Ok
  nodes : w.nodes.Ok
  clusterScoped : ∀ d ∈ w.devices.objects, d.metadata.ns = []
  capacity : ∀ d ∈ w.devices.objects, 0 < d.spec.totalCapacity ∧ d.spec.totalCapacity ≤ maxInt64
  named : ∀ n ∈ w.nodes.objects, n.key = ⟨[], n.spec.nodeName⟩
  sizes : ∀ p ∈ w.partitions.objects, (Capacity.roundUp p.spec.size).toBool = true
  sum : ∀ d ∈ w.devices.objects, allocated (onSerial d.spec.serialNumber) w.partitions.objects ≤ maxInt64

/-- The node is healthy at this time, and has reported its devices. -/
def usable (n : RDMAStorageNode) (t : ℤ) : Bool := (Health.validate n t).toBool && inventoryIsReady n

/-- The nodes do not become usable or unusable while the clock shows these times. -/
structure Steady (times : Set ℤ) (w : Cluster) : Prop where
  nonempty : times.Nonempty
  usable : ∀ n ∈ w.nodes.objects, ∀ t ∈ times, ∀ t' ∈ times, usable n t = usable n t'

/-- The device names a live claim that names the device. -/
def Owned (w : Cluster) (d : NVMeDevice) : Prop :=
  ∃ ref claim, d.status.claimRef = some ref ∧ ref.ns ≠ [] ∧ ref.name ≠ [] ∧ ref.uid ≠ [] ∧
    w.claims.find ref.key = some claim ∧ ownsDevice claim ref d = true

/-- The device can host the partition, and has room for it. -/
structure Eligible (times : Set ℤ) (w : Cluster) (p : NVMePartition) (d : NVMeDevice) : Prop where
  node : ∃ n ∈ w.nodes.objects, n.spec.nodeName = d.spec.nodeName ∧ ∃ t ∈ times, usable n t = true
  claimed : d.status.state = .claimed
  owned : Owned w d
  backend : d.status.activeBackend = [] ∨ d.status.activeBackend = requestedBackend p
  room : rounded p.spec.size ≤ free w d

/-- Of the eligible devices the one with the most free bytes, and of those the one with the smallest key. -/
structure Roomiest (times : Set ℤ) (w : Cluster) (p : NVMePartition) (d : NVMeDevice) : Prop where
  mem : d ∈ w.devices.objects
  eligible : Eligible times w p d
  most : ∀ d' ∈ w.devices.objects, Eligible times w p d' →
    d' = d ∨ free w d' < free w d ∨ free w d' = free w d ∧ d.key.string < d'.key.string

omit [StdLib] in
theorem deviceCanHostPartition_iff : deviceCanHostPartition d p = true ↔ d.status.state = .claimed ∧
    d.status.claimRef ≠ none ∧ (d.status.activeBackend = [] ∨ d.status.activeBackend = requestedBackend p) := by
  unfold deviceCanHostPartition
  split
  · rename_i h
    simp only [Bool.false_eq_true, false_iff]
    rintro ⟨hstate, href, -⟩
    rcases h with h | h
    · exact h hstate
    · exact href h
  · rename_i h
    push Not at h
    simp [h]

omit [StdLib] in
theorem availableCapacity_eq (hw : Sound w) (hd : d ∈ w.devices.objects)
    (hps : ps.Perm w.partitions.objects) : availableCapacity d ps = .ok (max (free w d) 0) := by
  have hsame : allocated (onSerial d.spec.serialNumber) ps =
      allocated (onSerial d.spec.serialNumber) w.partitions.objects := (hps.map _).sum_eq
  have hsum := hw.sum d hd
  have hcount : allocatedCapacityForDevice ps d.spec.serialNumber =
      .ok (allocated (onSerial d.spec.serialNumber) w.partitions.objects) := by
    have hadd : addAllocated d.spec.serialNumber ps 0 = .ok (0 + allocated (onSerial d.spec.serialNumber) ps) :=
      addAllocated_eq (fun q hq => hw.sizes q (hps.subset hq)) le_rfl (by rw [hsame]; omega)
    rw [zero_add, hsame] at hadd
    exact hadd
  have hnonneg := allocated_nonneg (onSerial d.spec.serialNumber) w.partitions.objects
  obtain ⟨hpos, hmax⟩ := hw.capacity d hd
  have hint : maxInt64 = 9223372036854775807 := rfl
  rw [availableCapacity, hcount, Except.map, i64_of_range (by omega) (by omega)]
  rfl

theorem liveClaimOwnsDevice_ensures (via : Reader) (d : NVMeDevice) :
    Ensures (alone times) (fun r t => t = w ∧ ∃ b : Bool, r = .ok b ∧ (b = true ↔ Owned w d))
      (liveClaimOwnsDevice via d) w := by
  unfold liveClaimOwnsDevice
  cases href : d.status.claimRef with
  | none =>
    refine .ret ⟨rfl, false, rfl, ?_⟩
    simp [Owned, href]
  | some ref =>
    dsimp only
    split
    · rename_i hempty
      refine .ret ⟨rfl, false, rfl, ?_⟩
      simp only [Bool.false_eq_true, false_iff]
      rintro ⟨ref', claim, href', hns, hname, huid, -⟩
      obtain rfl := Option.some.inj (href.symm.trans href')
      rcases hempty with h | h | h
      · exact hns h
      · exact hname h
      · exact huid h
    · rename_i hcomplete
      push Not at hcomplete
      have howned : ∀ {b : Bool}, (b = true ↔ ∃ claim, w.claims.find ref.key = some claim ∧ ownsDevice claim ref d = true) →
          (b = true ↔ Owned w d) := by
        intro b hb
        rw [hb]
        constructor
        · rintro ⟨claim, hclaim, howns⟩
          exact ⟨ref, claim, href, hcomplete.1, hcomplete.2.1, hcomplete.2.2, hclaim, howns⟩
        · rintro ⟨ref', claim, href', -, -, -, hclaim, howns⟩
          obtain rfl := Option.some.inj (href.symm.trans href')
          exact ⟨claim, hclaim, howns⟩
      cases hclaim : w.claims.find ref.key with
      | none =>
        refine .check_error (ensures_get (fun _ _ => Iff.rfl) ⟨notFound, congrArg found hclaim, ?_⟩)
        exact .ret ⟨rfl, false, rfl, howned (by simp [hclaim])⟩
      | some claim =>
        refine .check (ensures_get (fun _ _ => Iff.rfl) ⟨claim, congrArg found hclaim, ?_⟩)
        exact .ret ⟨rfl, _, rfl, howned (by simp [hclaim])⟩

/-! ### The candidates -/

theorem readyNodes_ensures (hsteady : Steady times w) {nodes : List RDMAStorageNode} (hnodes : nodes ⊆ w.nodes.objects) :
    Ensures (alone times) (fun ready t => t = w ∧ ∀ s, s ∈ ready ↔
      ∃ n ∈ nodes, n.spec.nodeName = s ∧ ∃ t ∈ times, usable n t = true) (readyNodes nodes) w := by
  induction nodes with
  | nil => exact .ret ⟨rfl, fun s => by simp⟩
  | cons n nodes ih =>
    obtain ⟨hn, hnodes⟩ := List.cons_subset.1 hnodes
    refine .bind (ensures_now hsteady.nonempty fun t ht => ?_)
    refine .bind ((ih hnodes).mono ?_)
    rintro ready _ ⟨rfl, hready⟩
    refine .ret ⟨rfl, fun s => ?_⟩
    have hany : (∃ t ∈ times, usable n t = true) ↔ usable n t = true :=
      ⟨fun ⟨t', ht', h⟩ => by rwa [hsteady.usable n hn t ht t' ht'], fun h => ⟨t, ht, h⟩⟩
    change s ∈ (if usable n t = true then n.spec.nodeName :: ready else ready) ↔ _
    rw [List.exists_mem_cons_iff, hany, ← hready]
    split
    · rename_i husable
      rw [List.mem_cons, eq_comm]
      simp [husable]
    · rename_i hnot
      simp [hnot]

/-- The candidate that stands for a device. -/
def candidateOf (w : Cluster) (d : NVMeDevice) : PlacementCandidate := ⟨d.key, d.spec.serialNumber, max (free w d) 0⟩

variable {bytes : ℤ}

/-- **The candidates are the eligible devices.** -/
theorem collectCandidates_ensures (hw : Sound w) (via : Reader) {ready : List Str}
    (hready : ∀ s, s ∈ ready ↔ ∃ n ∈ w.nodes.objects, n.spec.nodeName = s ∧ ∃ t ∈ times, usable n t = true)
    (hps : ps.Perm w.partitions.objects)
    (hbytes : Capacity.roundUp p.spec.size = .ok bytes) {devices : List NVMeDevice} (hdevices : devices ⊆ w.devices.objects) :
    Ensures (alone times) (fun r t => t = w ∧ ∃ cs, r = .ok cs ∧
      ∀ c, c ∈ cs ↔ ∃ d ∈ devices, Eligible times w p d ∧ c = candidateOf w d)
      (collectCandidates via ready p ps bytes devices) w := by
  have hpos := (Capacity.roundUp_pos hbytes).1
  induction devices with
  | nil => exact .ret ⟨rfl, [], rfl, fun c => by simp⟩
  | cons d devices ih =>
    obtain ⟨hd, hdevices⟩ := List.cons_subset.1 hdevices
    -- a device that is passed over is not eligible
    have hskip : ¬ Eligible times w p d → Ensures (alone times) (fun r t => t = w ∧ ∃ cs, r = .ok cs ∧
        ∀ c, c ∈ cs ↔ ∃ d' ∈ d :: devices, Eligible times w p d' ∧ c = candidateOf w d')
        (collectCandidates via ready p ps bytes devices) w := by
      intro hnot
      refine (ih hdevices).mono ?_
      rintro r t ⟨rfl, cs, rfl, hcs⟩
      refine ⟨rfl, cs, rfl, fun c => ?_⟩
      rw [hcs, List.exists_mem_cons_iff]
      simp [hnot]
    simp only [collectCandidates]
    split
    · rename_i hnode
      exact hskip fun h => hnode ((hready _).2 h.node)
    rename_i hnode
    split
    · rename_i hhost
      refine hskip fun h => ?_
      obtain ⟨ref, claim, href, -⟩ := h.owned
      have hcan : deviceCanHostPartition d p = true :=
        deviceCanHostPartition_iff.2 ⟨h.claimed, by simp [href], h.backend⟩
      simp [hcan] at hhost
    rename_i hhost
    obtain ⟨hclaimed, -, hbackend⟩ := deviceCanHostPartition_iff.1 (by simpa using hhost)
    refine .check ((liveClaimOwnsDevice_ensures via d).mono ?_)
    rintro _ t ⟨rfl, owned, rfl, howned⟩
    refine ⟨owned, rfl, ?_⟩
    split
    · rename_i hown
      exact hskip fun h => by simp [howned.2 h.owned] at hown
    rename_i hown
    rw [availableCapacity_eq hw hd hps]
    dsimp only
    split
    · rename_i hroom
      have heligible : Eligible times t p d := by
        refine ⟨(hready _).1 (not_not.1 hnode), hclaimed, howned.1 (by simpa using hown), hbackend, ?_⟩
        rw [rounded_eq hbytes]
        omega
      refine .check ((ih hdevices).mono ?_)
      rintro r u ⟨rfl, cs, rfl, hcs⟩
      refine ⟨cs, rfl, .ret ⟨rfl, _, rfl, fun c => ?_⟩⟩
      rw [List.mem_cons, hcs, List.exists_mem_cons_iff]
      simp [heligible, candidateOf]
    · rename_i hroom
      refine hskip fun h => ?_
      have := h.room
      rw [rounded_eq hbytes] at this
      omega

theorem placementCandidates_ensures (hw : Sound w) (hsteady : Steady times w) (via : Reader)
    (hbytes : Capacity.roundUp p.spec.size = .ok bytes) :
    Ensures (alone times) (fun r t => t = w ∧ ∃ cs : List PlacementCandidate, r = .ok (cs.insertionSort fun a b => a.le b) ∧
      ∀ c, c ∈ cs ↔ ∃ d ∈ w.devices.objects, Eligible times w p d ∧ c = candidateOf w d)
      (placementCandidates via p bytes) w := by
  refine .check (ensures_list (fun _ _ => Iff.rfl) fun devices hdevices => ⟨devices, rfl, ?_⟩)
  refine .check (ensures_list (fun _ _ => Iff.rfl) fun ps hps => ⟨ps, rfl, ?_⟩)
  refine .check (ensures_list (fun _ _ => Iff.rfl) fun nodes hnodes => ⟨nodes, rfl, ?_⟩)
  refine .bind ((readyNodes_ensures hsteady hnodes.subset).mono ?_)
  rintro ready w ⟨rfl, hready⟩
  have hready' : ∀ s, s ∈ ready ↔ ∃ n ∈ w.nodes.objects, n.spec.nodeName = s ∧ ∃ t ∈ times, usable n t = true := by
    intro s
    simp only [hready, hnodes.mem_iff]
  refine .check ((collectCandidates_ensures hw via hready' hps hbytes hdevices.subset).mono ?_)
  rintro _ w ⟨rfl, cs, rfl, hcs⟩
  refine ⟨cs, rfl, .ret ⟨rfl, cs, rfl, fun c => ?_⟩⟩
  simp only [hcs, hdevices.mem_iff]

theorem roomiest_of_head (hw : Sound w) (hbytes : Capacity.roundUp p.spec.size = .ok bytes)
    {cs rest : List PlacementCandidate} {c : PlacementCandidate}
    (hcs : ∀ c, c ∈ cs ↔ ∃ d ∈ w.devices.objects, Eligible times w p d ∧ c = candidateOf w d)
    (h : cs.insertionSort (fun a b => a.le b = true) = c :: rest) :
    ∃ d, Roomiest times w p d ∧ c = candidateOf w d := by
  obtain ⟨hmem, hfirst⟩ := sorted_head h
  obtain ⟨d, hd, heligible, rfl⟩ := (hcs c).1 hmem
  have hpos := (Capacity.roundUp_pos hbytes).1
  have hroom : ∀ {d}, Eligible times w p d → max (free w d) 0 = free w d := by
    intro d h
    have := h.room
    rw [rounded_eq hbytes] at this
    omega
  refine ⟨d, ⟨hd, heligible, fun d' hd' heligible' => ?_⟩, rfl⟩
  by_cases hsame : d' = d
  · exact .inl hsame
  -- the devices have no namespace, so different devices have different keys as strings
  have hstring : d.key.string ≠ d'.key.string := by
    intro heq
    simp only [Key.string, Object.key, hw.clusterScoped d hd, hw.clusterScoped d' hd', List.append_right_inj] at heq
    refine hsame (hw.devices.eq_of_key hd' hd ?_)
    simp [Object.key, hw.clusterScoped d hd, hw.clusterScoped d' hd', heq]
  right
  have hle : (candidateOf w d).le (candidateOf w d') = true := by
    rcases hfirst _ ((hcs _).2 ⟨d', hd', heligible', rfl⟩) with heq | hle
    · have hkey : d'.key = d.key := congrArg PlacementCandidate.key heq
      exact absurd (congrArg Key.string hkey.symm) hstring
    · exact hle
  rw [PlacementCandidate.le_iff] at hle
  simp only [candidateOf, hroom heligible, hroom heligible'] at hle
  rcases hle with hlt | ⟨heq, hle⟩
  · exact .inl hlt
  · exact .inr ⟨heq.symm, (List.le_iff_lt_or_eq.1 hle).resolve_right hstring⟩

/-! ### The reservation -/

/-- The partition is placed on the device, and everything else is as it was. -/
def PlacedOn (w : Cluster) (key : Key) (p : NVMePartition) (d : NVMeDevice) (w' : Cluster) : Prop :=
  ∃ ref p' version, d.status.claimRef = some ref ∧ p'.key = key ∧ p'.metadata.uid = p.metadata.uid ∧
    p'.spec = (withPlacement p d ref).spec ∧ p'.status = (withAuthorization (withPlacement p d ref)).status ∧
    w' = { w with partitions := ⟨w.partitions.objects.map fun o => if o.key = key then p' else o, version⟩ }

omit [StdLib] in
theorem persistPlacement_ensures {key : Key} {ref : ClaimRef} (hp : w.partitions.find key = some p)
    (hlive : p.metadata.deletionTimestamp = false) (href : d.status.claimRef = some ref) :
    Ensures (alone times) (fun r w' => r = .ok true ∧ PlacedOn w key p d w') (persistPlacement p d ref) w := by
  have hkey : p.key = key := (Store.mem_of_find hp).2
  let q := authorized w p d ref
  let w1 : Cluster := { w with partitions := w.partitions.put key (some q) }
  have hfind : w1.partitions.find key = some q := Store.find_put hp (by rintro _ ⟨⟩; exact hkey)
  -- the version is that of the first write, so the second one is not refused
  let q' := w1.partitions.updated q (withPlacement q d ref)
  have hupdate : w1.update (fun _ _ => true) (withPlacement q d ref) =
      (.ok q', { w1 with partitions := w1.partitions.put key (some q') }) := by
    have hsettle : q'.settle = some q' := settle_of_not_deleting hlive
    have hkey' : (withPlacement q d ref).key = key := hkey
    have hallowed : q.finalizersAllowed (withPlacement q d ref).metadata.finalizers = true := by
      have hq : q.metadata.deletionTimestamp = false := hlive
      rw [Object.finalizersAllowed, hq]
      rfl
    rw [Cluster.update, Store.update, hkey', hfind]
    dsimp only
    rw [if_neg (by simp [withPlacement]), if_neg (by simp), hallowed, if_neg (by simp), hsettle]
  unfold persistPlacement
  refine .check (ensures_write (fun _ _ => Iff.rfl) ?_)
  rw [patchStatus_authorized d ref hp]
  refine ⟨q, rfl, .check (ensures_write (fun _ _ => Iff.rfl) ?_)⟩
  rw [hupdate]
  refine ⟨q', rfl, .ret ⟨rfl, ref, q', w1.partitions.version + 1, href, hkey, rfl, rfl, rfl, ?_⟩⟩
  -- one object is written twice
  have hobjects : (w1.partitions.put key (some q')).objects =
      w.partitions.objects.map fun o => if o.key = key then q' else o := by
    rw [Store.put_some, Store.put_some, List.map_map]
    refine List.map_congr_left fun o _ => ?_
    have hq : q.key = key := hkey
    by_cases ho : o.key = key
    · simp [ho, hq]
    · simp [ho]
  rw [← hobjects]
  rfl

section reserving

variable (hw : Sound w) (hsteady : Steady times w) (via : Reader) {key : Key}
  (hbytes : Capacity.roundUp p.spec.size = .ok bytes) (hp : w.partitions.find key = some p)
  (hfree : p.spec.nodeName = []) (hlive : p.metadata.deletionTimestamp = false) (hd : d ∈ w.devices.objects)
  (h : Eligible times w p d)
include hw hsteady hbytes hp hfree hlive hd h

theorem reserveOnce_ensures : Ensures (alone times) (fun r w' => r = .ok true ∧ PlacedOn w key p d w')
      (reserveOnce via key (candidateOf w d) bytes) w := by
  obtain ⟨ref, claim, href, -⟩ := id h.owned
  have hhost : deviceCanHostPartition d p = true :=
    deviceCanHostPartition_iff.2 ⟨h.claimed, by simp [href], h.backend⟩
  obtain ⟨n, hn, hname, t0, ht0, husable⟩ := h.node
  have hnode : w.nodes.find ⟨[], d.spec.nodeName⟩ = some n := by
    rw [← hname, ← hw.named n hn]
    exact hw.nodes.find_eq hn
  refine .check (ensures_get (fun _ _ => Iff.rfl) ⟨p, congrArg found hp, ?_⟩)
  rw [if_neg (by simp [hfree, hlive])]
  refine .check (ensures_get (fun _ _ => Iff.rfl) ⟨d, congrArg found (hw.devices.find_eq hd), ?_⟩)
  rw [if_neg (by simp [hhost, candidateOf])]
  refine .check ((liveClaimOwnsDevice_ensures via d).mono ?_)
  rintro _ w ⟨rfl, owned, rfl, howned⟩
  refine ⟨owned, rfl, ?_⟩
  rw [howned.2 h.owned]
  refine .check (ensures_get (fun _ _ => Iff.rfl) ⟨n, congrArg found hnode, ?_⟩)
  refine .bind (ensures_now hsteady.nonempty fun t ht => ?_)
  have hcheck : (!(Health.validate n t).toBool || !inventoryIsReady n) = false := by
    have hnow : usable n t = true := by rw [hsteady.usable n hn t ht t0 ht0, husable]
    rw [← Bool.not_and, show ((Health.validate n t).toBool && inventoryIsReady n) = true from hnow]
    rfl
  rw [hcheck]
  refine .check (ensures_list (fun _ _ => Iff.rfl) fun ps hps => ⟨ps, rfl, ?_⟩)
  rw [availableCapacity_eq hw hd hps]
  have hroom := h.room
  rw [rounded_eq hbytes] at hroom
  dsimp only
  rw [if_neg (by omega), href]
  exact persistPlacement_ensures hp hlive href

theorem reserveCandidate_ensures : Ensures (alone times) (fun r w' => r = .ok true ∧ PlacedOn w key p d w')
      (reserveCandidate via key (candidateOf w d) bytes) w := by
  refine .bind (ensures_lock (.bind ?_))
  -- the first attempt succeeds
  refine .check ((reserveOnce_ensures hw hsteady via hbytes hp hfree hlive hd h).mono ?_)
  rintro _ w' ⟨rfl, hplaced⟩
  exact ⟨true, rfl, .ret (.bind (ensures_unlock (.ret ⟨rfl, hplaced⟩)))⟩

end reserving

/-- **The roomiest device.**  A reconciliation that is alone ends, whatever the order of the lists, with the partition
on the eligible device that has the most free bytes, or on the one with the smallest key among those; if no device is
eligible, with everything as it was. -/
theorem placement_roomiest (hw : Sound w) (hsteady : Steady times w) (via : Reader) {key : Key}
    (hp : w.partitions.find key = some p) (hfree : p.spec.nodeName = []) (hlive : p.metadata.deletionTimestamp = false) :
    Ensures (alone times) (fun r w' =>
      (∃ d, Roomiest times w p d ∧ r = .ok .no ∧ PlacedOn w key p d w') ∨
      (∀ d ∈ w.devices.objects, ¬ Eligible times w p d) ∧ r = .ok .after5s ∧ w' = w) (reconcile via key) w := by
  obtain ⟨hmem, hkey⟩ := Store.mem_of_find hp
  obtain ⟨bytes, hbytes⟩ := roundUp_valid (hw.sizes p hmem)
  refine .check (ensures_get (fun _ _ => Iff.rfl) ⟨p, congrArg found hp, ?_⟩)
  rw [if_neg (not_not.2 hfree), hbytes]
  refine .check ((placementCandidates_ensures hw hsteady via hbytes).mono ?_)
  rintro _ w ⟨rfl, cs, rfl, hcs⟩
  refine ⟨_, rfl, ?_⟩
  cases hsorted : cs.insertionSort (fun a b => a.le b = true) with
  | nil =>
    have hnil : cs = [] := by
      have hperm := List.perm_insertionSort (fun a b : PlacementCandidate => a.le b = true) cs
      rw [hsorted] at hperm
      exact hperm.symm.eq_nil
    refine .ret (.inr ⟨fun d hd heligible => ?_, rfl, rfl⟩)
    have hin := (hcs _).2 ⟨d, hd, heligible, rfl⟩
    rw [hnil] at hin
    cases hin
  | cons c rest =>
    obtain ⟨d, hroomiest, rfl⟩ := roomiest_of_head hw hbytes hcs hsorted
    rw [if_neg (by simp), hkey]
    refine .check ((reserveCandidate_ensures hw hsteady via hbytes hp hfree hlive hroomiest.mem hroomiest.eligible).mono ?_)
    rintro _ w' ⟨rfl, hplaced⟩
    exact ⟨true, rfl, .ret (.inl ⟨d, hroomiest, rfl, hplaced⟩)⟩

end eligible

section run

attribute [local instance] asciiLib

/-- A second device with as much room as the sample device, under a larger name, and its claim. -/
def secondDevice : NVMeDevice where
  metadata := { ns := [], name := "d2" }
  spec := { nodeName := "n1", pciAddress := "0000:02:00.0", serialNumber := "s2", totalCapacity := 8388608 }
  status := { state := .claimed, claimRef := some ⟨str "ns", str "claim2", str "c2"⟩ }

def secondClaim : NVMeDeviceClaim where
  metadata := { ns := "ns", name := "claim2", uid := "c2" }
  spec := { serialNumber := "s2" }
  status := { active := true, matchedDevice := "d2", nodeName := "n1" }

def twoDevices : Cluster where
  partitions := ⟨[waiting], 1⟩
  devices := ⟨[secondDevice, sampleDevice], 1⟩
  claims := ⟨[secondClaim, sampleClaim], 1⟩
  nodes := ⟨[sampleNode], 1⟩

theorem twoDevices_sound : Sound twoDevices where
  partitions := ⟨by decide, by decide⟩
  devices := ⟨by decide, by decide⟩
  nodes := ⟨by decide, by decide⟩
  clusterScoped := by decide
  capacity := by decide
  named := by decide
  sizes := by decide
  sum := by decide

theorem twoDevices_eligible : Eligible {0} twoDevices waiting sampleDevice where
  node := ⟨sampleNode, List.mem_cons_self, rfl, 0, rfl, by decide⟩
  claimed := rfl
  owned := ⟨sampleRef, sampleClaim, rfl, by decide, by decide, by decide, by decide, by decide⟩
  backend := .inl rfl
  room := by decide

/-- The second device comes first in the list, and the sample device has the smaller name. -/
theorem placement_roomiest_tie : Ensures (alone {0}) (fun _ w' => PlacedOn twoDevices waiting.key waiting sampleDevice w')
    (reconcile .api waiting.key) twoDevices := by
  have hsteady : Steady {0} twoDevices := by
    refine ⟨⟨0, rfl⟩, ?_⟩
    rintro n - t rfl t' rfl
    rfl
  refine (placement_roomiest twoDevices_sound hsteady .api rfl rfl rfl).mono ?_
  rintro r w' (⟨d, hroomiest, -, hplaced⟩ | ⟨hnone, -⟩)
  · rcases List.mem_pair.1 hroomiest.mem with rfl | rfl
    · have hbest := hroomiest.most sampleDevice (by decide) twoDevices_eligible
      exact absurd hbest (by decide)
    · exact hplaced
  · exact absurd twoDevices_eligible (hnone sampleDevice (by decide))

end run

end Distort.Manager
