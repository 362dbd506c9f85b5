import Distort.Agent.Reporter
import Distort.Lib.Machine
import Distort.Lib.Store
import Distort.Manager.Claim

/-!
A claimed device has an owner, unless two writers race for it.

Any number of passes of the reporters of all nodes and of reconciliations of claims.  A read shows what is
stored, or what was stored at some time; what a reconciliation is told about claims and partitions is left
open.  The status patches of both are merge patches without a version.  Others may delete devices, and write
about them what they like except for the state and the reference.

* `claimed_has_owner` — if a patch that changes the state or the reference always finds those that it was
  computed from, then a device in state `Claimed` has a reference;
* `claimed_without_owner` — a drive comes back while its claim is finalized.
-/

namespace Distort.DeviceState

open Go Lib Lib.Kube Api Proc

/-! ### The state -/

structure World where
  devices : Store NVMeDeviceSpec NVMeDeviceStatus
  /-- Everything that was ever stored. -/
  past : List NVMeDevice

/-- What others do. -/
inductive Change where
  | delete (key : Key)
  /-- Any write that leaves the state and the reference alone. -/
  | write (obj : NVMeDevice)

structure Choice where
  fate : Fate := .ok
  /-- What a lagging cache shows, if it is not what is stored. -/
  shown : Option (List NVMeDevice) := none
  uid : Str := []
  /-- The answer to a call that the state says nothing about. -/
  reply : (c : Call) → Option c.Resp := fun _ => none
  change : Change := .delete ⟨[], []⟩

namespace World

/-- The devices that a read shows. -/
def view (w : World) : Option (List NVMeDevice) → Option (List NVMeDevice)
  | none => some w.devices.objects
  | some ds => if ds.all w.past.contains then some ds else none

def write (w : World) (devices : Store NVMeDeviceSpec NVMeDeviceStatus) : World :=
  ⟨devices, devices.objects ++ w.past⟩

/-- What a write of others makes of a stored device. -/
def written (w : World) (stored obj : NVMeDevice) : NVMeDevice :=
  w.devices.stamp { obj with
    metadata := { obj.metadata with ns := stored.metadata.ns, name := stored.metadata.name }
    status := { obj.status with state := stored.status.state, claimRef := stored.status.claimRef } }

def change (w : World) : Change → Option World
  | .delete key => some (w.write (w.devices.delete key).2)
  | .write obj => (w.devices.find obj.key).map fun stored =>
      w.write (w.devices.put obj.key (w.written stored obj).settle)

end World

/-! ### The system -/

/-- A pass of the reporter of a node, or a reconciliation of a claim. -/
inductive Job where
  | report (nodeName : Str)
  | claim (key : Key)

def answer (ch : Choice) : (c : Call) → World → Option (c.Resp × World)
  | .api (.get .device _ key), w => (w.view ch.shown).bind fun ds =>
      ch.fate.answer w (found (ds.find? fun d => d.key = key), w)
  | .api (.list .device _), w => (w.view ch.shown).bind fun ds => ch.fate.answer w (.ok ds, w)
  | .api (.create .device obj), w => ch.fate.answer w ((w.devices.create ch.uid ({} : NVMeDeviceStatus) obj).map id w.write)
  | .api (.patch .device base obj), w =>
    ch.fate.answer w ((w.devices.patchSpec NVMeDeviceSpec.merge base obj).map id w.write)
  | .api (.patchStatus .device base obj), w =>
    ch.fate.answer w ((w.devices.patchStatus NVMeDeviceStatus.merge base obj).map id w.write)
  | .api (.update .device _), _ | .api (.delete .device _), _ => none
  | c, w => (ch.reply c).map fun r => (r, w)

def initial (w : World) : Prop := w.devices.objects = [] ∧ w.past = []

/-- **The system of the reporters and the reconciler of claims.** -/
def machine [StdLib] : Machine Call Call.Resp World Job Choice Unit where
  body
    | .report nodeName => Agent.Reporter.reportDevices .cache nodeName >>= fun _ => .ret ()
    | .claim key => Manager.Claim.reconcile .cache key >>= fun _ => .ret ()
  answer ch _ := answer ch
  change ch w := w.change ch.change
  init := initial
  together _ _ := true

/-- A patch leaves the state and the reference alone. -/
def neutral (base obj : NVMeDevice) : Bool :=
  obj.status.state = base.status.state && obj.status.claimRef = base.status.claimRef

/-- A status patch that is not neutral finds the state and the reference that it was computed from. -/
def undisturbed (_ : Job) (c : Call) (w : World) : Bool :=
  match c with
  | .api (.patchStatus .device base obj) => neutral base obj || (w.devices.find obj.key).all (neutral base)
  | _ => true

/-! ### Invariant -/

/-- A claimed device has a reference. -/
def Owned (d : NVMeDevice) : Prop := d.status.state = .claimed → d.status.claimRef ≠ none

/-- Every device is owned or not claimed. -/
def Inv (w : World) : Prop := ∀ d ∈ w.devices.objects, Owned d

/-- What has to hold of a call: a patch that changes something makes a device that is as it should be. -/
def Sound (c : Call) : Prop :=
  match c with
  | .api (.patchStatus .device base obj) => neutral base obj = true ∨ Owned obj
  | _ => True

variable {w w' : World}

theorem neutral_iff {base obj : NVMeDevice} : neutral base obj = true ↔
    obj.status.state = base.status.state ∧ obj.status.claimRef = base.status.claimRef := by
  simp [neutral]

theorem Inv.put (h : Inv w) {key : Key} {v : Option NVMeDevice} (hv : ∀ d, v = some d → Owned d) :
    Inv (w.write (w.devices.put key v)) := by
  intro d hd
  rcases Store.mem_put.1 hd with ⟨hold, -⟩ | ⟨hnew, -⟩
  · exact h d hold
  · exact hv d hnew

theorem Inv.same (h : Inv w) : Inv (w.write w.devices) := h

/-- **A status patch**: either it touches neither the state nor the reference, or both become what the writer
has computed. -/
theorem Inv.patchStatus (h : Inv w) {j : Job} {base obj : NVMeDevice}
    (hc : Sound (.api (.patchStatus .device base obj)))
    (hu : undisturbed j (.api (.patchStatus .device base obj)) w = true) :
    Inv (w.write (w.devices.patchStatus NVMeDeviceStatus.merge base obj).2) := by
  rcases Store.patchStatus_cases (s := w.devices) NVMeDeviceStatus.merge base obj with ⟨-, heq⟩ | ⟨stored, hf, heq⟩
  · rw [heq]
    exact h.same
  rw [heq]
  refine h.put ?_
  rintro d ⟨⟩
  simp only [undisturbed, hf, Option.all_some, Bool.or_eq_true] at hu
  show mergeField base.status.state obj.status.state stored.status.state = .claimed →
    mergeField base.status.claimRef obj.status.claimRef stored.status.claimRef ≠ none
  by_cases hneutral : neutral base obj = true
  · obtain ⟨hstate, href⟩ := neutral_iff.1 hneutral
    rw [hstate, href, mergeField_self, mergeField_self]
    exact h stored (Store.mem_of_find hf).1
  · obtain ⟨hstate, href⟩ := neutral_iff.1 (hu.resolve_left hneutral)
    rw [hstate, href, mergeField_base, mergeField_base]
    exact hc.resolve_left hneutral

theorem Inv.patchSpec (h : Inv w) (base obj : NVMeDevice) :
    Inv (w.write (w.devices.patchSpec NVMeDeviceSpec.merge base obj).2) := by
  rcases Store.patchSpec_cases (s := w.devices) NVMeDeviceSpec.merge base obj with ⟨-, heq⟩ | ⟨stored, hf, heq⟩
  · rw [heq]
    exact h.same
  rw [heq]
  refine h.put ?_
  rintro d ⟨⟩
  exact h stored (Store.mem_of_find hf).1

theorem Inv.create (h : Inv w) (uid : Str) (obj : NVMeDevice) :
    Inv (w.write (w.devices.create uid ({} : NVMeDeviceStatus) obj).2) := by
  unfold Store.create
  split
  · exact h.same
  intro d hd
  rcases List.mem_append.1 hd with hold | hnew
  · exact h d hold
  -- a new device is in no state at all
  obtain rfl := List.mem_singleton.1 hnew
  exact nofun

theorem Inv.change (h : Inv w) {ch : Change} (hw : w.change ch = some w') : Inv w' := by
  cases ch with
  | delete key =>
    cases hw
    rcases Store.delete_cases (s := w.devices) key with ⟨-, heq⟩ | ⟨stored, hf, heq⟩
    · rw [heq]
      exact h.same
    rw [heq]
    refine h.put fun d hd => ?_
    obtain ⟨d0, hd0, rfl⟩ := Option.map_eq_some_iff.1 hd
    obtain ⟨-, -, -, -, -, -, -, hstatus⟩ := delete_eq_some hd0
    have hsame : (w.devices.stamp d0).status = stored.status := hstatus
    unfold Owned
    rw [hsame]
    exact h stored (Store.mem_of_find hf).1
  | write obj =>
    obtain ⟨stored, hf, rfl⟩ := Option.map_eq_some_iff.1 hw
    refine h.put fun d hd => ?_
    rw [settle_eq_some hd]
    exact h stored (Store.mem_of_find hf).1

/-- **Every sound call that is not disturbed keeps the invariant.** -/
theorem answer_kept (h : Inv w) {j : Job} {ch : Choice} {c : Call} {r : c.Resp} (hc : Sound c)
    (hu : undisturbed j c w = true) (ha : answer ch c w = some (r, w')) : Inv w' := by
  have hmove : ∀ {w1 : World}, Inv w1 → (w' = w ∨ w' = w1) → Inv w' := by
    rintro w1 hi (rfl | rfl)
    · exact h
    · exact hi
  unfold answer at ha
  split at ha
  · obtain ⟨ds, -, hans⟩ := Option.bind_eq_some_iff.1 ha
    exact hmove h (Fate.answer_state hans)
  · obtain ⟨ds, -, hans⟩ := Option.bind_eq_some_iff.1 ha
    exact hmove h (Fate.answer_state hans)
  · exact hmove (h.create ch.uid _) (Fate.answer_state ha)
  · exact hmove (h.patchSpec _ _) (Fate.answer_state ha)
  · exact hmove (h.patchStatus hc hu) (Fate.answer_state ha)
  · cases ha
  · cases ha
  · obtain ⟨_, -, heq⟩ := Option.map_eq_some_iff.1 ha
    exact hmove h (.inl (Prod.mk.inj heq).2.symm)

/-! ### The programs -/

section

variable [StdLib]

open Agent.Reporter in
theorem reportDevice_only (via : Reader) (nodeName : Str) (d : HardwareNVMe) (t : Tally) :
    (reportDevice via nodeName d t).Only Sound := by
  unfold reportDevice
  split
  · trivial
  split
  · trivial
  refine .check (only_op trivial) (fun err => ?_) fun device => ?_
  · split
    · refine .next (only_op trivial) fun created => ?_
      refine .next (only_op trivial) fun latest => ?_
      -- it becomes available
      have hinit : Sound (.api (.patchStatus .device latest (initialized latest))) := .inr nofun
      exact .bind (only_op hinit) fun _ => trivial
    · trivial
  · refine .next (only_op trivial) fun current => ?_
    refine .next (only_op ?_) fun latest => trivial
    by_cases hun : current.status.state = .unavailable
    · -- it becomes claimed if it has a reference
      refine .inr fun hclaimed hnone => ?_
      have hstate : (returned current).status.state = .available := by
        have hnone' : current.status.claimRef = none := hnone
        simp [returned, withCondition, hun, hnone']
      rw [hstate] at hclaimed
      cases hclaimed
    · refine .inl (neutral_iff.2 ⟨?_, rfl⟩)
      simp [returned, withCondition, hun]

open Agent.Reporter in
theorem reportDevices_only (via : Reader) (nodeName : Str) : (reportDevices via nodeName).Only Sound := by
  have hfound : ∀ ds t, (reportFound via nodeName ds t).Only Sound := by
    intro ds
    induction ds with
    | nil => exact fun t => trivial
    | cons d ds ih => exact fun t => (reportDevice_only via nodeName d t).bind ih
  have hmissing : ∀ seen devices, (reportMissing nodeName seen devices).Only Sound := by
    intro seen devices
    induction devices with
    | nil => trivial
    | cons device devices ih =>
      unfold reportMissing
      split
      · exact ih
      · have hsound : Sound (.api (.patchStatus .device device (missing device))) := .inr nofun
        exact .bind (only_op hsound) fun _ => ih
  refine .bind (only_op trivial) fun found => (hfound _ _).bind fun t => ?_
  refine .next (only_op trivial) fun reported => ?_
  split
  · trivial
  · exact (hmissing _ reported).bind fun _ => trivial

open Manager.Claim in
theorem reconcile_only (key : Key) : (Manager.Claim.reconcile .cache key).Only Sound := by
  refine Manager.Claim.reconcile_only (fun c hc => ?_) (fun device => .inr fun hclaimed => ?_)
    (fun claim device => .inr fun _ => Option.some_ne_none _) (fun _ _ => ⟨trivial, trivial⟩) key
  · unfold Sound
    split
    · cases hc
    · trivial
  · have hstate : (released device).status.state = if deviceIsPresent device then .available else .unavailable := rfl
    rw [hstate] at hclaimed
    split at hclaimed <;> cases hclaimed

/-- The outline of all programs: they count on nothing. -/
def outline : Outline (machine.guarded undisturbed).system where
  Inv := Inv
  Rely _ _ _ := True
  Guar _ _ _ := True
  Req _ c _ := Sound c
  Post _ _ _ := True
  rely_refl _ _ := trivial
  rely_trans _ _ _ _ _ _ := trivial
  init w hw := by
    intro d hd
    have hnil : w.devices.objects = [] := hw.1
    rw [hnil] at hd
    cases hd
  env := by
    rintro w w' hi ⟨ch, hw⟩
    exact ⟨hi.change hw, fun _ => trivial⟩
  guar _ _ _ _ _ _ _ _ := trivial

theorem body_safe (j : Job) (w : World) : outline.Complies j (machine.body j) w := by
  have honly : (machine.body j).Only Sound := by
    cases j with
    | report nodeName => exact (reportDevices_only .cache nodeName).bind fun _ => trivial
    | claim key => exact (reconcile_only key).bind fun _ => trivial
  refine .of_only honly trivial (fun _ _ _ _ => trivial) (fun _ _ hc _ _ => hc) ?_
  intro c w1 r w2 hc hi _ hs
  obtain ⟨hu, ch, ha⟩ := (Machine.sem_guarded machine).1 hs
  exact ⟨answer_kept hi hc hu ha, trivial, trivial⟩

/-- **A claimed device has an owner.**  In every run in which each status patch that changes the state or the
reference of a device finds the state and the reference that it was computed from, a stored device in state
`Claimed` has a reference. -/
theorem claimed_has_owner {pool : Pool Call Call.Resp World Job Unit}
    (h : (machine.guarded undisturbed).system.Reachable pool) {d : NVMeDevice} (hd : d ∈ pool.world.devices.objects)
    (hstate : d.status.state = .claimed) : d.status.claimRef ≠ none := by
  have hkept : outline.Kept pool := Outline.Kept.reachable (fun j _ w _ _ => body_safe j w) h
  exact hkept.inv d hd hstate

end

/-! ### Runs -/

section

attribute [local instance] asciiLib

def sampleDrive : HardwareNVMe := ⟨"nvme0", "0000:01:00.0", "s1", 8388608⟩

def sampleClaim (deleted : Bool) : NVMeDeviceClaim where
  metadata := {
    ns := "ns", name := "claim", uid := "c1", deletionTimestamp := deleted, finalizers := [Manager.Claim.claimFinalizer] }
  spec := { serialNumber := "s1" }
  status := {}

/-- Everything that is not in the state: the drives that are found, the claim, and no partitions. -/
def replies (drives : List HardwareNVMe) (deleted : Bool) (c : Call) : Option c.Resp :=
  match c with
  | .node .discoverNVMe => some (.ok drives)
  | .api (.get .claim _ _) => some (.ok (sampleClaim deleted))
  | .api (.patchStatus .claim _ obj) => some (.ok obj)
  | .api (.list .partition _) => some (.ok [])
  | _ => none

/-- The `i`-th program makes `n` calls. -/
def serve (i n : ℕ) (drives : List HardwareNVMe) (deleted : Bool) : List (Act Job Choice) :=
  Act.serve { uid := "u1", reply := replies drives deleted } i n

/-- A drive is reported and claimed, and then it is no longer found. -/
def vanished : List (Act Job Choice) :=
  List.flatten [[.start (.report "n1")], serve 0 6 [sampleDrive] false, [.drop 0, .start (.claim ⟨"ns", "claim"⟩)],
    serve 0 5 [] false, [.drop 0, .start (.report "n1")], serve 0 3 [] false, [.drop 0]]

def sampleWorld : World := ⟨⟨[], 0⟩, []⟩

theorem initial_sampleWorld : initial sampleWorld := ⟨rfl, rfl⟩

theorem exists_of_any {w : World} {test : NVMeDevice → Bool}
    (h : (w.devices.objects.any fun d => decide (d.status.state = .claimed) && test d) = true) :
    ∃ d ∈ w.devices.objects, d.status.state = .claimed ∧ test d = true := by
  obtain ⟨d, hd, htest⟩ := List.any_eq_true.1 h
  rw [Bool.and_eq_true, decide_eq_true_eq] at htest
  exact ⟨d, hd, htest⟩

/-- **A claimed device without an owner.**  The drive is found again, and the reporter reads that the device is
unavailable and has an owner; then the claim is finalized, which takes the reference and leaves the state; then
the reporter writes that the device is claimed.  All reads are fresh. -/
theorem claimed_without_owner : ∃ pool, machine.system.Reachable pool ∧
    ∃ d ∈ pool.world.devices.objects, d.status.state = .claimed ∧ d.status.claimRef = none := by
  obtain ⟨pool, hpool, hp⟩ := Machine.exists_reachable
    (List.flatten [vanished, [.start (.report "n1")], serve 0 3 [sampleDrive] true, [.start (.claim ⟨"ns", "claim"⟩)],
      serve 0 4 [] true, serve 1 1 [] true]) sampleWorld
    (fun c => c.world.devices.objects.any fun d => decide (d.status.state = .claimed) && d.status.claimRef.isNone)
    (show machine.init sampleWorld from initial_sampleWorld) (by decide +kernel)
  obtain ⟨d, hd, hstate, hnone⟩ := exists_of_any hp
  exact ⟨pool, hpool, d, hd, hstate, Option.isNone_iff_eq_none.1 hnone⟩

/-- A drive vanishes and is found again while it is claimed. -/
theorem claimed_has_owner_returned : ∃ pool, (machine.guarded undisturbed).system.Reachable pool ∧
    ∃ d ∈ pool.world.devices.objects, d.status.state = .claimed ∧ d.status.claimRef ≠ none := by
  obtain ⟨pool, hpool, hp⟩ := Machine.exists_reachable
    (vanished ++ [.start (.report "n1")] ++ serve 0 4 [sampleDrive] false) sampleWorld
    (fun c => c.world.devices.objects.any fun d => decide (d.status.state = .claimed) && true)
    (show (machine.guarded undisturbed).init sampleWorld from initial_sampleWorld) (by decide +kernel)
  obtain ⟨d, hd, hstate, -⟩ := exists_of_any hp
  exact ⟨pool, hpool, d, hd, hstate, claimed_has_owner hpool hd hstate⟩

end

end Distort.DeviceState
