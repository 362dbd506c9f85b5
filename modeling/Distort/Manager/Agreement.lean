import Distort.Agent.PartitionManager
import Distort.Lib.Server
import Distort.Lib.Store
import Distort.Manager.Commitment

/-!
The manager and the agent look at the same placement.

The manager decides where a partition goes, and the agent decides whether it may provision it there.  The two tests
are written apart, over the same partition, claim and device.

* `assigned_accepted` — what a run of `reserveCandidate` that nobody interferes with assigns, the agent accepts, and
  for the same device;
* `covered_iff_exact` — a partition that the agent accepts for a device is counted on the device, and was placed under
  the lock of the device, if and only if the two serial numbers are equal byte by byte; the agent compares them up to
  case.
-/

namespace Distort.Manager.Agreement

open Go Lib Lib.Kube Lib.Prog Api Proc Agent

/-! ### The cluster -/

structure Cluster where
  partitions : Store NVMePartitionSpec NVMePartitionStatus
  devices : Store NVMeDeviceSpec NVMeDeviceStatus
  claims : Store NVMeDeviceClaimSpec NVMeDeviceClaimStatus
  nodes : Store RDMAStorageNodeSpec RDMAStorageNodeStatus

/-- What becomes of a request, what the rules for updates say of it, and the time. -/
structure Choice where
  fate : Fate := .ok
  allow : NVMePartitionSpec → NVMePartitionSpec → Bool := fun _ _ => true
  time : ℤ := 0

namespace Cluster

def patchStatus (base obj : NVMePartition) (w : Cluster) : Except Err NVMePartition × Cluster :=
  ((w.partitions.patchStatus NVMePartitionStatus.merge base obj).1,
    { w with partitions := (w.partitions.patchStatus NVMePartitionStatus.merge base obj).2 })

def update (allow : NVMePartitionSpec → NVMePartitionSpec → Bool) (obj : NVMePartition) (w : Cluster) :
    Except Err NVMePartition × Cluster :=
  ((w.partitions.update allow obj).1, { w with partitions := (w.partitions.update allow obj).2 })

/-- The requests of one client that is alone; each may fail, with or without its effect, and with any error. -/
def serve (ch : Choice) : (c : Call) → Cluster → Option (c.Resp × Cluster)
  | .api (.get .partition _ key), w => ch.fate.answerAny w (found (w.partitions.find key), w)
  | .api (.get .device _ key), w => ch.fate.answerAny w (found (w.devices.find key), w)
  | .api (.get .claim _ key), w => ch.fate.answerAny w (found (w.claims.find key), w)
  | .api (.get .node _ key), w => ch.fate.answerAny w (found (w.nodes.find key), w)
  | .api (.list .partition _), w => ch.fate.answerAny w (.ok w.partitions.objects, w)
  | .api (.patchStatus .partition base obj), w => ch.fate.answerAny w (w.patchStatus base obj)
  | .api (.update .partition obj), w => ch.fate.answerAny w (w.update ch.allow obj)
  | .proc .now, w => some (ch.time, w)
  | .proc (.lock _), w => some ((), w)
  | .proc (.unlock _), w => some ((), w)
  | _, _ => none

def server : Server Call Call.Resp Cluster := .of serve

/-- Nothing fails, and every read shows what is stored. -/
def fresh : (c : Call) → Cluster → Option (c.Resp × Cluster) := serve { }

/-- What the API server guarantees of the devices: they have no namespace, and their names, nodes and serial numbers
are not empty. -/
def Valid (w : Cluster) : Prop :=
  ∀ d ∈ w.devices.objects, d.metadata.ns = [] ∧ d.metadata.name ≠ [] ∧ d.spec.nodeName ≠ [] ∧ d.spec.serialNumber ≠ []

end Cluster

/-! ### Requests -/

section requests

variable {I : Cluster → Prop} {w : Cluster}

theorem holds_get {r : Resource} {via : Reader} {key : Key} {stored : Except Err r.Obj} {Q : Except Err r.Obj → Cluster → Prop}
    (hserve : ∀ ch, Cluster.serve ch (.api (.get r via key)) w = ch.fate.answerAny w (stored, w))
    (hI : I w) (hok : Q stored w) (herr : ∀ err, Q (.error err) w) : Holds Cluster.server I Q (get r via key) w := by
  refine ⟨hI, fun a w' h => ?_⟩
  obtain ⟨ch, h⟩ := h
  rw [hserve] at h
  rcases Fate.answerWith_cases h with ⟨rfl, rfl⟩ | ⟨err, rfl, -, rfl | rfl⟩
  · exact ⟨hI, hok⟩
  · exact ⟨hI, herr err⟩
  · exact ⟨hI, herr err⟩

theorem holds_list {via : Reader} {Q : Except Err (List NVMePartition) → Cluster → Prop} (hI : I w)
    (hok : Q (.ok w.partitions.objects) w) (herr : ∀ err, Q (.error err) w) :
    Holds Cluster.server I Q (list .partition via) w := by
  refine ⟨hI, fun a w' h => ?_⟩
  obtain ⟨ch, h⟩ := h
  rcases Fate.answerWith_cases h with ⟨rfl, rfl⟩ | ⟨err, rfl, -, rfl | rfl⟩
  · exact ⟨hI, hok⟩
  · exact ⟨hI, herr err⟩
  · exact ⟨hI, herr err⟩

end requests

/-! ### What the agent accepts -/

section accepted

variable [StdLib] {key deviceKey : Key} {w : Cluster} {p : NVMePartition} {d : NVMeDevice} {claim : NVMeDeviceClaim}
  {ref : ClaimRef}

/-- The partition under the key goes to the device under the other key, and the agent accepts it for this device. -/
def Accepted (key deviceKey : Key) (w : Cluster) : Prop :=
  ∃ p d, w.partitions.find key = some p ∧ w.devices.find deviceKey = some d ∧ p.spec.nodeName = d.spec.nodeName ∧
    run Cluster.fresh (verifyProvisioningAuthorization p) w = some (.ok d, w)

/-- The partition under the key goes nowhere yet, and nothing was made for it. -/
def Waiting (key : Key) (w : Cluster) : Prop :=
  ∀ p, w.partitions.find key = some p →
    p.spec.nodeName = [] ∧ recoveringExistingAllocation p = false ∧ p.metadata.uid ≠ []

theorem verify_run (hplacement : checkPlacement p = .ok ref) (hclaim : w.claims.find ref.key = some claim)
    (hcheck : checkClaim p ref claim = .ok ()) (hdevice : w.devices.find ⟨[], claim.status.matchedDevice⟩ = some d)
    (hcheck' : checkDevice p d = .ok ()) : run Cluster.fresh (verifyProvisioningAuthorization p) w = some (.ok d, w) := by
  apply Yields.run_eq
  unfold verifyProvisioningAuthorization
  rw [hplacement]
  refine .check (.op (Call.api (.get .claim .cache ref.key)) rfl ⟨claim, congrArg found hclaim, ?_⟩)
  rw [hcheck]
  refine .check (.op (Call.api (.get .device .cache ⟨[], claim.status.matchedDevice⟩)) rfl ⟨d, congrArg found hdevice, ?_⟩)
  rw [hcheck']
  exact .ret ⟨rfl, rfl⟩

/-- What the manager has looked at before it writes. -/
structure Selected (key deviceKey : Key) (w : Cluster) (p : NVMePartition) (d : NVMeDevice) (ref : ClaimRef) : Prop where
  partition : w.partitions.find key = some p
  unassigned : p.spec.nodeName = []
  blank : recoveringExistingAllocation p = false
  uid : p.metadata.uid ≠ []
  live : p.metadata.deletionTimestamp = false
  device : w.devices.find deviceKey = some d
  claimed : d.status.state = .claimed
  claimRef : d.status.claimRef = some ref
  complete : ref.ns ≠ [] ∧ ref.name ≠ [] ∧ ref.uid ≠ []
  owned : ∃ claim, w.claims.find ref.key = some claim ∧ ownsDevice claim ref d = true

/-- **The agent accepts what the manager has written.** -/
theorem Selected.accepted {w' : Cluster} {p' : NVMePartition} (h : Selected key deviceKey w p d ref) (hvalid : w.Valid)
    (hdevices : w'.devices = w.devices) (hclaims : w'.claims = w.claims) (hstored : w'.partitions.find key = some p')
    (huid : p'.metadata.uid = p.metadata.uid) (hgeneration : p'.metadata.generation = p.metadata.generation + 1)
    (hspec : p'.spec = (withPlacement p d ref).spec) (hstatus : p'.status = (withAuthorization (withPlacement p d ref)).status) :
    Accepted key deviceKey w' := by
  obtain ⟨hmem, hkey⟩ := Store.mem_of_find h.device
  obtain ⟨hns, hname, hnode, hserial⟩ := hvalid d hmem
  obtain ⟨claim, hclaim, howns⟩ := h.owned
  simp only [ownsDevice, Bool.and_eq_true, decide_eq_true_eq, Bool.not_eq_true'] at howns
  obtain ⟨⟨⟨⟨⟨hclaimUID, hclaimLive⟩, hactive⟩, hmatched⟩, hclaimNode⟩, hfold⟩ := howns
  have hblank : recoveringExistingAllocation p' = false := by
    rw [recoveringExistingAllocation, hstatus]
    exact h.blank
  have hauthorized : PlacementAuth.isAuthorized p' = true := by
    have hfound := findStatusCondition_set_self p.status.conditions {
      type := PlacementAuth.conditionType
      status := .true
      observedGeneration := p.metadata.generation + 1
      reason := "ManagerSelectedPlacement"
      message := "The management controller authorized this exact node, device, and claim placement" }
    refine PlacementAuth.isAuthorized_iff.2 ⟨_, by rw [hstatus]; exact hfound, rfl, hgeneration.symm, ?_, ?_⟩
    · rw [hstatus, huid, hspec]
      rfl
    · rw [hstatus]
      exact PlacementAuth.fingerprint_ne_nil h.uid hnode hserial h.complete
  have hplacement : checkPlacement p' = .ok ref := by
    simp [checkPlacement, hblank, hauthorized, hspec, withPlacement, h.complete, hserial]
  have hcheck : checkClaim p' ref claim = .ok () := by
    simp [checkClaim, hclaimUID, hclaimLive, hmatched, hname, hclaimNode, hspec, withPlacement, hfold, hactive]
  have hcheck' : checkDevice p' d = .ok () := by
    simp [checkDevice, hspec, withPlacement, equalFold, h.claimed, claimReferencesEqual, h.claimRef]
  refine ⟨p', d, hstored, by rw [hdevices]; exact h.device, by rw [hspec]; rfl, ?_⟩
  refine verify_run hplacement (by rw [hclaims]; exact hclaim) hcheck ?_ hcheck'
  have hdkey : (⟨[], claim.status.matchedDevice⟩ : Key) = deviceKey := by
    rw [hmatched, ← hkey, ← hns]
    rfl
  rw [hdkey, hdevices]
  exact h.device

end accepted

/-! ### The placement -/

variable (via : Reader)

section placement

variable [StdLib] {key deviceKey : Key} {w : Cluster} {p : NVMePartition} {d : NVMeDevice} {ref : ClaimRef}

/-- At every moment of a placement. -/
def Inv (key deviceKey : Key) (w : Cluster) : Prop := w.Valid ∧ (Waiting key w ∨ Accepted key deviceKey w)

/-- The partition that the first write leaves. -/
def authorized (w : Cluster) (p : NVMePartition) (d : NVMeDevice) (ref : ClaimRef) : NVMePartition :=
  w.partitions.stamp { p with status := (withAuthorization (withPlacement p d ref)).status }

omit [StdLib] in
theorem patchStatus_authorized (d : NVMeDevice) (ref : ClaimRef) (h : w.partitions.find key = some p) :
    w.patchStatus (withPlacement p d ref) (withAuthorization (withPlacement p d ref)) =
      (.ok (authorized w p d ref), { w with partitions := w.partitions.put key (some (authorized w p d ref)) }) := by
  have hkey : (withAuthorization (withPlacement p d ref)).key = key := (Store.mem_of_find h).2
  have hmerge : NVMePartitionStatus.merge (withPlacement p d ref).status
      (withAuthorization (withPlacement p d ref)).status p.status = (withAuthorization (withPlacement p d ref)).status :=
    NVMePartitionStatus.merge_base p.status _
  rw [Cluster.patchStatus, Store.patchStatus, hkey, h]
  dsimp only
  rw [hmerge]
  rfl

theorem Selected.waiting (h : Selected key deviceKey w p d ref) :
    Waiting key { w with partitions := w.partitions.put key (some (authorized w p d ref)) } := by
  have hkey : p.key = key := (Store.mem_of_find h.partition).2
  have hfind : (w.partitions.put key (some (authorized w p d ref))).find key = some (authorized w p d ref) :=
    Store.find_put h.partition (by rintro _ ⟨⟩; exact hkey)
  intro p' hp'
  obtain rfl := Option.some.inj (hfind.symm.trans hp')
  exact ⟨h.unassigned, h.blank, h.uid⟩

theorem Selected.update_cases (h : Selected key deviceKey w p d ref) (hvalid : w.Valid)
    (allow : NVMePartitionSpec → NVMePartitionSpec → Bool) (w1 : Cluster)
    (hw1 : w1 = { w with partitions := w.partitions.put key (some (authorized w p d ref)) }) :
    (∃ err, w1.update allow (withPlacement (authorized w p d ref) d ref) = (.error err, w1)) ∨
      Accepted key deviceKey (w1.update allow (withPlacement (authorized w p d ref) d ref)).2 := by
  subst hw1
  have hkey : p.key = key := (Store.mem_of_find h.partition).2
  have hfind : (w.partitions.put key (some (authorized w p d ref))).find key = some (authorized w p d ref) :=
    Store.find_put h.partition (by rintro _ ⟨⟩; exact hkey)
  unfold Cluster.update
  dsimp only
  rcases Store.update_cases (s := w.partitions.put key (some (authorized w p d ref)))
    (o := withPlacement (authorized w p d ref) d ref) allow with ⟨err, herr⟩ | ⟨stored, hstored, -, -, heq⟩
  · rw [herr]
    exact .inl ⟨err, rfl⟩
  · have hsame : stored = authorized w p d ref :=
      Option.some.inj ((hkey ▸ hstored : _ = some stored).symm.trans hfind)
    right
    rw [heq, hsame]
    -- the name of a node is set, so the spec has changed and the generation with it
    have hnode : d.spec.nodeName ≠ [] := (hvalid d (Store.mem_of_find h.device).1).2.2.1
    have hchanged : (withPlacement (authorized w p d ref) d ref).spec ≠ (authorized w p d ref).spec := by
      intro hspec
      have hname : d.spec.nodeName = p.spec.nodeName := congrArg NVMePartitionSpec.nodeName hspec
      exact hnode (hname.trans h.unassigned)
    rw [settle_of_not_deleting (by exact h.live)]
    have hput := Store.find_put (v := some ((w.partitions.put key (some (authorized w p d ref))).updated
      (authorized w p d ref) (withPlacement (authorized w p d ref) d ref))) hfind (by rintro _ ⟨⟩; exact hkey)
    have hkey' : (withPlacement (authorized w p d ref) d ref).key = key := hkey
    rw [hkey']
    exact h.accepted hvalid rfl rfl hput rfl (if_neg hchanged) rfl rfl

/-- The two writes: whatever becomes of them, the partition goes nowhere or is accepted. -/
theorem persistPlacement_holds (h : Selected key deviceKey w p d ref) (hvalid : w.Valid) :
    Holds Cluster.server (Inv key deviceKey) (OnOk fun assigned t => assigned = true → Accepted key deviceKey t)
      (persistPlacement p d ref) w := by
  have hinv : Inv key deviceKey w := by
    refine ⟨hvalid, .inl fun p' hp' => ?_⟩
    obtain rfl := Option.some.inj (h.partition.symm.trans hp')
    exact ⟨h.unassigned, h.blank, h.uid⟩
  have hinv1 : Inv key deviceKey { w with partitions := w.partitions.put key (some (authorized w p d ref)) } :=
    ⟨hvalid, .inl h.waiting⟩
  refine .try ⟨hinv, fun a w1 hserve => ?_⟩
  obtain ⟨ch, hserve⟩ := hserve
  simp only [Cluster.serve, patchStatus_authorized d ref h.partition] at hserve
  rcases Fate.answerWith_cases hserve with ⟨rfl, rfl⟩ | ⟨err, rfl, -, rfl | rfl⟩
  · refine ⟨hinv1, onOk_ok (.try ⟨hinv1, fun a w2 hserve => ?_⟩)⟩
    obtain ⟨ch, hserve⟩ := hserve
    -- the second write fails and changes nothing, or the agent accepts what it leaves
    rcases h.update_cases hvalid ch.allow _ rfl with ⟨err, hupdate⟩ | haccepted
    · simp only [Cluster.serve, hupdate] at hserve
      rcases Fate.answerWith_cases hserve with ⟨rfl, rfl⟩ | ⟨err', rfl, -, rfl | rfl⟩
      · exact ⟨hinv1, onOk_error err⟩
      · exact ⟨hinv1, onOk_error err'⟩
      · exact ⟨hinv1, onOk_error err'⟩
    · have hdone : Inv key deviceKey (Cluster.update ch.allow (withPlacement (authorized w p d ref) d ref)
          { w with partitions := w.partitions.put key (some (authorized w p d ref)) }).2 := ⟨hvalid, .inr haccepted⟩
      simp only [Cluster.serve] at hserve
      rcases Fate.answerWith_cases hserve with ⟨rfl, rfl⟩ | ⟨err', rfl, -, rfl | rfl⟩
      · exact ⟨hdone, fun _ _ => .ret hdone (onOk_ok fun _ => haccepted)⟩
      · exact ⟨hinv1, onOk_error err'⟩
      · exact ⟨hdone, onOk_error err'⟩
  · exact ⟨hinv, onOk_error err⟩
  · exact ⟨hinv1, onOk_error err⟩

theorem liveClaimOwnsDevice_holds {I : Cluster → Prop} (hI : I w) (via : Reader) (d : NVMeDevice) :
    Holds Cluster.server I (fun r t => t = w ∧ (r = .ok true → ∃ ref, d.status.claimRef = some ref ∧
        (ref.ns ≠ [] ∧ ref.name ≠ [] ∧ ref.uid ≠ []) ∧
        ∃ claim, w.claims.find ref.key = some claim ∧ ownsDevice claim ref d = true))
      (liveClaimOwnsDevice via d) w := by
  unfold liveClaimOwnsDevice
  cases href : d.status.claimRef with
  | none => exact .ret hI ⟨rfl, nofun⟩
  | some ref =>
    dsimp only
    split
    · exact .ret hI ⟨rfl, nofun⟩
    rename_i hcomplete
    push Not at hcomplete
    have hmissing : ∀ err : Err, Holds Cluster.server I (fun r t => t = w ∧ (r = .ok true → ∃ ref', some ref = some ref' ∧
        (ref'.ns ≠ [] ∧ ref'.name ≠ [] ∧ ref'.uid ≠ []) ∧
        ∃ claim, w.claims.find ref'.key = some claim ∧ ownsDevice claim ref' d = true))
        (if err.isNotFound then done false else fail err) w := by
      intro err
      split
      · exact .ret hI ⟨rfl, nofun⟩
      · exact .ret hI ⟨rfl, nofun⟩
    refine .check (holds_get (fun _ => rfl) hI ?_ hmissing)
    cases hclaim : w.claims.find ref.key with
    | none => exact hmissing notFound
    | some claim =>
      refine .ret hI ⟨rfl, fun hr => ⟨ref, rfl, hcomplete, claim, hclaim, ?_⟩⟩
      exact Except.ok.inj hr

omit [StdLib] in
theorem deviceCanHostPartition_claimed (h : deviceCanHostPartition d p = true) : d.status.state = .claimed := by
  unfold deviceCanHostPartition at h
  split at h
  · cases h
  rename_i hstate
  push Not at hstate
  exact hstate.1

theorem reserveOnce_holds {candidate : PlacementCandidate} (requestedBytes : ℤ) (hinv : Inv key candidate.key w) :
    Holds Cluster.server (Inv key candidate.key) (OnOk fun assigned t => assigned = true → Accepted key candidate.key t)
      (reserveOnce via key candidate requestedBytes) w := by
  have hend : ∀ {r : Except Err Bool}, (r = .ok true → Accepted key candidate.key w) →
      Holds Cluster.server (Inv key candidate.key) (OnOk fun assigned t => assigned = true → Accepted key candidate.key t)
        (.ret r) w := by
    rintro r hr
    refine .ret hinv ?_
    rintro _ rfl rfl
    exact hr rfl
  have hmissing : ∀ {err : Err}, Holds Cluster.server (Inv key candidate.key)
      (OnOk fun assigned t => assigned = true → Accepted key candidate.key t)
      (if err.isNotFound then done false else fail err) w := by
    intro err
    split
    · exact hend nofun
    · exact hend nofun
  refine .check (holds_get (fun _ => rfl) hinv ?_ fun err => hmissing)
  cases hp : w.partitions.find key with
  | none => exact hmissing
  | some p =>
    dsimp only [found]
    split
    · -- the partition goes somewhere already, so an earlier attempt has sent it there
      refine hend fun hr => hinv.2.resolve_left fun hwaiting => ?_
      exact of_decide_eq_true (Except.ok.inj hr) (hwaiting p hp).1
    rename_i hfree
    push Not at hfree
    refine .check (holds_get (fun _ => rfl) hinv ?_ fun err => hmissing)
    cases hd : w.devices.find candidate.key with
    | none => exact hmissing
    | some d =>
      dsimp only [found]
      split
      · exact hend nofun
      rename_i hhost
      push Not at hhost
      refine .check ((liveClaimOwnsDevice_holds hinv via d).mono ?_)
      rintro r t - ⟨rfl, howned⟩
      rcases r with err | owned
      · exact hend nofun
      dsimp only
      split
      · exact hend nofun
      rename_i hown
      have htrue : owned = true := by simpa using hown
      obtain ⟨ref, href, hcomplete, hclaim⟩ := howned (congrArg _ htrue)
      simp only [href]
      refine .check (holds_get (fun _ => rfl) hinv ?_ fun err => hend nofun)
      cases t.nodes.find ⟨[], d.spec.nodeName⟩ with
      | none => exact hend nofun
      | some node =>
        refine .bind ⟨hinv, ?_⟩
        rintro now _ ⟨ch, ⟨⟩⟩
        refine ⟨hinv, ?_⟩
        dsimp only
        split
        · exact hend nofun
        refine .check (holds_list hinv ?_ fun err => hend nofun)
        dsimp only
        split
        · exact hend nofun
        split
        · exact hend nofun
        rcases hinv.2 with hwaiting | ⟨p', d', hp', hd', hnode, -⟩
        · obtain ⟨hunassigned, hblank, huid⟩ := hwaiting p hp
          have hclaimed : d.status.state = .claimed := deviceCanHostPartition_claimed (by simpa using hhost.2)
          exact persistPlacement_holds ⟨hp, hunassigned, hblank, huid, by simpa using hfree.2, hd, hclaimed, href,
            hcomplete, hclaim⟩ hinv.1
        · -- a partition that is accepted goes to a node
          obtain rfl := Option.some.inj (hp.symm.trans hp')
          have hname := (hinv.1 d' (Store.mem_of_find hd').1).2.2.1
          exact absurd (hnode.symm.trans hfree.1) hname

omit [StdLib] in
theorem retryOnConflict_holds {I : Cluster → Prop} {Q : Bool → Cluster → Prop} {attempt : Proc (Except Err Bool)}
    (h : ∀ w, I w → Holds Cluster.server I (OnOk Q) attempt w) (n : ℕ) (hI : I w) :
    Holds Cluster.server I (OnOk Q) (retryOnConflict attempt n) w := by
  induction n generalizing w with
  | zero => exact h w hI
  | succ n ih =>
    refine .check ((h w hI).mono fun r t ht hr => ?_)
    cases r with
    | error err =>
      dsimp only
      split
      · exact ih ht
      · exact .ret ht (onOk_error err)
    | ok assigned => exact .ret ht hr

theorem reserveCandidate_holds {candidate : PlacementCandidate} (requestedBytes : ℤ) (hinv : Inv key candidate.key w) :
    Holds Cluster.server (Inv key candidate.key) (OnOk fun assigned t => assigned = true → Accepted key candidate.key t)
      (reserveCandidate via key candidate requestedBytes) w := by
  refine .bind ⟨hinv, ?_⟩
  rintro _ _ ⟨ch, ⟨⟩⟩
  refine ⟨hinv, .bind ((retryOnConflict_holds (fun _ hw => reserveOnce_holds via requestedBytes hw) _ hinv).mono
    fun r t ht hr => ?_)⟩
  refine .bind ⟨ht, ?_⟩
  rintro _ _ ⟨ch, ⟨⟩⟩
  exact ⟨ht, .ret ht hr⟩

/-- **What the manager assigns, the agent accepts.**  A run of `reserveCandidate` that nobody interferes with has
assigned the partition when it says so, and whenever the stored partition has a node; then the agent of this node,
with fresh reads, accepts the partition and is given the device of the candidate. -/
theorem assigned_accepted (key : Key) (candidate : PlacementCandidate) (requestedBytes : ℤ) (w w' : Cluster)
    (p : NVMePartition) (q : Proc (Except Err Bool)) (hvalid : w.Valid) (hp : w.partitions.find key = some p)
    (huid : p.metadata.uid ≠ []) (hunassigned : p.spec.nodeName = []) (hempty : p.status = {})
    (hrun : Reaches Cluster.server (reserveCandidate via key candidate requestedBytes) w q w')
    (hassigned : q = .ret (.ok true) ∨ ∃ p', w'.partitions.find key = some p' ∧ p'.spec.nodeName ≠ []) :
    ∃ p' d, w'.partitions.find key = some p' ∧ w'.devices.find candidate.key = some d ∧
      p'.spec.nodeName = d.spec.nodeName ∧
      run Cluster.fresh (verifyProvisioningAuthorization p') w' = some (.ok d, w') := by
  have hinv : Inv key candidate.key w := by
    refine ⟨hvalid, .inl fun p' hp' => ?_⟩
    obtain rfl := Option.some.inj (hp.symm.trans hp')
    refine ⟨hunassigned, ?_, huid⟩
    rw [recoveringExistingAllocation, hempty]
    rfl
  have hholds := hrun.holds (reserveCandidate_holds via requestedBytes hinv)
  rcases hassigned with rfl | ⟨p', hp', hnode⟩
  · exact hholds.2 true rfl rfl
  · exact hholds.inv.2.resolve_left fun hwaiting => hnode (hwaiting p' hp').1

end placement

section run

attribute [local instance] asciiLib

def waiting : NVMePartition where
  metadata := { ns := "ns", name := "p", uid := "u", resourceVersion := 1, generation := 1 }
  spec := { size := 1 }
  status := {}

/-- A partition that waits, and a device for it. -/
def waitingCluster : Cluster where
  partitions := ⟨[waiting], 1⟩
  devices := ⟨[sampleDevice], 1⟩
  claims := ⟨[sampleClaim], 1⟩
  nodes := ⟨[sampleNode], 1⟩

/-- The run in which nothing fails. -/
def placing : Proc (Except Err Bool) × Cluster :=
  Prog.exec Cluster.serve (List.replicate 12 { }) (reserveCandidate .api waiting.key ⟨sampleDevice.key, "s1", 8388608⟩ 4194304)
    waitingCluster

theorem assigned_accepted_sample : (placing.2.partitions.find waiting.key).map (·.spec.nodeName) = some (str "n1") ∧
      ∃ p' d, placing.2.partitions.find waiting.key = some p' ∧ placing.2.devices.find sampleDevice.key = some d ∧
        p'.spec.nodeName = d.spec.nodeName ∧
        run Cluster.fresh (verifyProvisioningAuthorization p') placing.2 = some (.ok d, placing.2) := by
  have hnode : (placing.2.partitions.find waiting.key).map (·.spec.nodeName) = some (str "n1") := by decide +kernel
  obtain ⟨p', hp', hname⟩ := Option.map_eq_some_iff.1 hnode
  refine ⟨hnode, assigned_accepted .api waiting.key ⟨sampleDevice.key, "s1", 8388608⟩ 4194304 waitingCluster placing.2 waiting
    placing.1 ?_ rfl (by decide) rfl rfl (reaches_exec Cluster.serve _ _ _) (.inr ⟨p', hp', ?_⟩)⟩
  · intro d hd
    obtain rfl := List.mem_singleton.1 hd
    decide
  · rw [hname]
    decide

end run

/-! ### What is counted and locked -/

section counted

/-- The size of the partition is part of what is counted for the serial number, whatever else is there. -/
def Counted (p : NVMePartition) (serial : Str) : Prop :=
  ∀ l r used bytes, allocatedCapacityForDevice (l ++ r) serial = .ok used → Capacity.roundUp p.spec.size = .ok bytes →
    used + bytes ≤ maxInt64 → allocatedCapacityForDevice (l ++ p :: r) serial = .ok (used + bytes)

theorem addAllocated_append (serial : Str) (l r : List NVMePartition) (used : ℤ) :
    addAllocated serial (l ++ r) used = (addAllocated serial l used).bind (addAllocated serial r) := by
  induction l generalizing used with
  | nil => rfl
  | cons p l ih =>
    simp only [List.cons_append, addAllocated]
    split
    · exact ih used
    split
    · rfl
    split
    · rfl
    · exact ih _

theorem addAllocated_shift {serial : Str} {ps : List NVMePartition} {used total bytes : ℤ}
    (h : addAllocated serial ps used = .ok total) (hused : 0 ≤ used) (hmax : used ≤ maxInt64) (hbytes : 0 ≤ bytes)
    (hfits : total + bytes ≤ maxInt64) : addAllocated serial ps (used + bytes) = .ok (total + bytes) := by
  induction ps generalizing used with
  | nil =>
    obtain rfl := Except.ok.inj h
    rfl
  | cons p ps ih =>
    simp only [addAllocated] at h ⊢
    split at h
    · rename_i hne
      rw [if_pos hne]
      exact ih h hused hmax
    · rename_i heq
      rw [if_neg heq]
      rcases hround : Capacity.roundUp p.spec.size with err | size
      · rw [hround] at h
        cases h
      rw [hround] at h
      dsimp only at h ⊢
      obtain ⟨hpos, hsize⟩ := Capacity.roundUp_pos hround
      have hint : maxInt64 = 9223372036854775807 := rfl
      rw [i64_of_range (by omega) (by omega)] at h ⊢
      split at h
      · cases h
      rename_i hle
      rw [i64_of_range (by omega) (by omega)] at h
      -- the rest is counted on top of this one, so the total is not below it
      have htotal := (Commitment.addAllocated_ok h (by omega) (by omega)).1
      have hrest := Commitment.allocated_nonneg (Commitment.onSerial serial) ps
      rw [if_neg (by omega), i64_of_range (by omega) (by omega)]
      have hshift := ih h (by omega) (by omega)
      rw [← hshift]
      congr 1
      omega

theorem counted_of_eq {p : NVMePartition} {serial : Str} (h : p.spec.parentDeviceSerialNumber = serial) : Counted p serial := by
  intro l r used bytes hused hbytes hfits
  unfold allocatedCapacityForDevice at hused ⊢
  obtain ⟨hpos, hsize⟩ := Capacity.roundUp_pos hbytes
  have hint : maxInt64 = 9223372036854775807 := rfl
  rw [addAllocated_append] at hused ⊢
  rcases hl : addAllocated serial l 0 with err | before
  · rw [hl] at hused
    cases hused
  rw [hl] at hused
  have hr : addAllocated serial r before = .ok used := hused
  obtain ⟨hbefore, hmax⟩ := Commitment.addAllocated_ok hl le_rfl (by decide)
  have hnonneg := Commitment.allocated_nonneg (Commitment.onSerial serial) l
  have htotal := (Commitment.addAllocated_ok hr (by omega) hmax).1
  have hrest := Commitment.allocated_nonneg (Commitment.onSerial serial) r
  change addAllocated serial (p :: r) before = _
  rw [addAllocated, if_neg (not_not.2 h), hbytes]
  dsimp only
  rw [i64_of_range (by omega) (by omega), if_neg (by omega), i64_of_range (by omega) (by omega)]
  exact addAllocated_shift hr (by omega) hmax hpos.le hfits

theorem eq_of_counted {p : NVMePartition} {serial : Str} {bytes : ℤ} (hbytes : Capacity.roundUp p.spec.size = .ok bytes)
    (h : Counted p serial) : p.spec.parentDeviceSerialNumber = serial := by
  by_contra hne
  obtain ⟨hpos, hsize⟩ := Capacity.roundUp_pos hbytes
  have hint : maxInt64 = 9223372036854775807 := rfl
  -- alone it would be counted as nothing
  have halone := h [] [] 0 bytes rfl hbytes (by omega)
  rw [List.nil_append, allocatedCapacityForDevice, addAllocated, if_pos hne] at halone
  have hzero : (0 : ℤ) = 0 + bytes := Except.ok.inj halone
  omega

end counted

section covered

/-- A run in which every call may be answered in any way. -/
def anything : Server Call Call.Resp Unit := fun _ _ _ _ => True

variable [StdLib]

/-- The locks that a run holds, and what it has written while it held which. -/
structure Locks where
  held : List Str := []
  written : List (NVMePartition × List Str) := []

def Locks.after (s : Locks) : Call → Locks
  | .proc (.lock name) => { s with held := name :: s.held }
  | .proc (.unlock name) => { s with held := s.held.erase name }
  | .api (.update .partition o) => { s with written := (o, s.held) :: s.written }
  | _ => s

/-- The same, with a record of the locks. -/
def locking : Server Call Call.Resp Locks := fun c s _ s' => s' = s.after c

/-- A run of `reserveCandidate` writes the placement of the partition while it holds these locks. -/
def Places (locks : List Str) (p : NVMePartition) : Prop :=
  ∃ via key candidate requestedBytes q s o, Reaches locking (reserveCandidate via key candidate requestedBytes) {} q s ∧
    (o, locks) ∈ s.written ∧ o.spec = p.spec

/-- A run of `reserveCandidate` writes a placement on the device while it holds these locks. -/
def PlacesOn (locks : List Str) (d : NVMeDevice) : Prop := ∃ p ref, Places locks (withPlacement p d ref)

/-- There is one lock that every run holds, and no other, when it places the partition or anything on the device. -/
def SameLock (p : NVMePartition) (d : NVMeDevice) : Prop :=
  ∃ name, (∀ locks, Places locks p → locks = [name]) ∧ ∀ locks, PlacesOn locks d → locks = [name]

/-- What is written is a placement on the serial number whose lock is held. -/
def Locks.Guarded (s : Locks) : Prop := ∀ w ∈ s.written, w.2 = [w.1.spec.parentDeviceSerialNumber]

theorem reserveCandidate_guarded (key : Key) (candidate : PlacementCandidate) (requestedBytes : ℤ) :
    Holds locking Locks.Guarded (fun _ _ => True) (reserveCandidate via key candidate requestedBytes) {} := by
  have hnone : ∀ {held}, Locks.Guarded ⟨held, []⟩ := List.forall_mem_nil _
  refine .bind (.op hnone ?_)
  rintro _ _ rfl
  refine ⟨hnone, .bind ?_⟩
  -- in between, nothing is locked or unlocked
  let P : Call → Prop := fun c => ∀ s : Locks, s.held = [candidate.serial] → s.Guarded →
    (s.after c).held = [candidate.serial] ∧ (s.after c).Guarded
  have honly : (retryOnConflict (reserveOnce via key candidate requestedBytes) (defaultRetrySteps - 1)).Only P := by
    refine retryReserve_only (fun c hc s hs hg => ?_) (fun p d ref hserial => ⟨fun s hs hg => ⟨hs, hg⟩, fun s hs hg => ⟨hs, ?_⟩⟩)
      (fun s hs hg => ⟨hs, hg⟩) key requestedBytes _
    · unfold asks at hc
      split at hc
      · exact ⟨hs, hg⟩
      · exact ⟨hs, hg⟩
      · exact ⟨hs, hg⟩
      · cases hc
    · intro w hw
      rcases List.mem_cons.1 hw with rfl | hw
      · rw [hs, ← hserial]
        rfl
      · exact hg w hw
  have hbetween : Holds locking (fun s => s.held = [candidate.serial] ∧ s.Guarded)
      (fun _ s => s.held = [candidate.serial] ∧ s.Guarded)
      (retryOnConflict (reserveOnce via key candidate requestedBytes) (defaultRetrySteps - 1)) ⟨[candidate.serial], []⟩ :=
    .of_only honly ⟨rfl, hnone⟩ fun c s _ s' hc hs hs' => hs' ▸ hc s hs.1 hs.2
  refine (hbetween.weaken fun _ h => h.2).mono fun _ s hg _ => .bind (.op hg ?_)
  rintro _ _ rfl
  exact ⟨hg, hg, trivial⟩

theorem Places.locks {locks : List Str} {p : NVMePartition} (h : Places locks p) :
    locks = [p.spec.parentDeviceSerialNumber] := by
  obtain ⟨via, key, candidate, requestedBytes, q, s, o, hreach, hwritten, hspec⟩ := h
  rw [← hspec]
  exact (hreach.holds (reserveCandidate_guarded via key candidate requestedBytes)).inv _ hwritten

/-- The agent accepts a device whose serial number is that of the partition up to case. -/
theorem verify_equalFold (p : NVMePartition) : Meets anything
      (OnOk fun d _ => equalFold d.spec.serialNumber p.spec.parentDeviceSerialNumber = true)
      (verifyProvisioningAuthorization p) () := by
  unfold verifyProvisioningAuthorization
  split
  · exact .ret trivial (onOk_error _)
  refine .try ⟨trivial, fun claim _ _ => ⟨trivial, fun claim _ => ?_⟩⟩
  dsimp only
  split
  · exact .ret trivial (onOk_error _)
  refine .try ⟨trivial, fun device _ _ => ⟨trivial, fun device _ => ?_⟩⟩
  dsimp only
  split
  · exact .ret trivial (onOk_error _)
  rename_i u hcheck
  refine .ret trivial (onOk_ok ?_)
  unfold checkDevice at hcheck
  split at hcheck
  · cases hcheck
  rename_i hsame
  push Not at hsame
  simpa using hsame.2

/-- **What the agent may provision on a device is covered by its accounting and its lock if and only if the serial
numbers are equal byte by byte**, of any partition with a size that can be counted. -/
theorem covered_iff_exact (p : NVMePartition) (d : NVMeDevice) {bytes : ℤ} (hbytes : Capacity.roundUp p.spec.size = .ok bytes)
    (haccepts : Reaches anything (verifyProvisioningAuthorization p) () (.ret (.ok d)) ()) :
    equalFold d.spec.serialNumber p.spec.parentDeviceSerialNumber = true ∧
      (Counted p d.spec.serialNumber ∧ SameLock p d ↔ p.spec.parentDeviceSerialNumber = d.spec.serialNumber) := by
  refine ⟨(haccepts.holds (verify_equalFold p)).2 d rfl, ?_, ?_⟩
  · rintro ⟨hcounted, -⟩
    exact eq_of_counted hbytes hcounted
  · intro hexact
    refine ⟨counted_of_eq hexact, d.spec.serialNumber, fun locks hplaces => hexact ▸ hplaces.locks, ?_⟩
    rintro locks ⟨q, ref, hplaces⟩
    exact hplaces.locks

end covered

section run

attribute [local instance] asciiLib

/-- A partition that was placed on the sample device while its serial number was spelled as given. -/
def placedOn (serial : Str) : NVMePartition where
  metadata := { ns := "ns", name := "p", uid := "u", resourceVersion := 1, generation := 2 }
  spec := { size := 1, nodeName := "n1", parentDeviceSerialNumber := serial, claimRef := some sampleRef }
  status := { externalID := "e" }

def placedCluster (serial : Str) : Cluster where
  partitions := ⟨[placedOn serial], 1⟩
  devices := ⟨[sampleDevice], 1⟩
  claims := ⟨[sampleClaim], 1⟩
  nodes := ⟨[sampleNode], 1⟩

theorem sample_accepts (serial : Str) (hplacement : checkPlacement (placedOn serial) = .ok sampleRef)
    (hclaim : checkClaim (placedOn serial) sampleRef sampleClaim = .ok ())
    (hdevice : checkDevice (placedOn serial) sampleDevice = .ok ()) :
    Reaches anything (verifyProvisioningAuthorization (placedOn serial)) () (.ret (.ok sampleDevice)) () := by
  unfold verifyProvisioningAuthorization
  rw [hplacement]
  refine .step (r := .ok sampleClaim) (show True from trivial) (?_ : Reaches anything _ () _ ())
  simp only [Prog.bind, hclaim]
  refine .step (r := .ok sampleDevice) (show True from trivial) (?_ : Reaches anything _ () _ ())
  simp only [Prog.bind, hdevice]
  exact .refl _ _

theorem covered_iff_exact_sample : Counted (placedOn "s1") "s1" ∧ SameLock (placedOn "s1") sampleDevice := by
  have hbytes : Capacity.roundUp (placedOn "s1").spec.size = .ok 4194304 := by decide
  have haccepts := sample_accepts "s1" (by decide) (by decide) (by decide)
  exact (covered_iff_exact (placedOn "s1") sampleDevice hbytes haccepts).2.2 rfl

/-- The agent accepts a partition with the serial number `S1` for the device `s1`; its 4 MiB are not counted there. -/
theorem provisioned_not_counted :
    run Cluster.fresh (verifyProvisioningAuthorization (placedOn "S1")) (placedCluster "S1") =
        some (.ok sampleDevice, placedCluster "S1") ∧
      Capacity.roundUp (placedOn "S1").spec.size = .ok 4194304 ∧
      allocatedCapacityForDevice (placedCluster "S1").partitions.objects sampleDevice.spec.serialNumber = .ok 0 ∧
      ¬ Counted (placedOn "S1") sampleDevice.spec.serialNumber := by
  have hbytes : Capacity.roundUp (placedOn "S1").spec.size = .ok 4194304 := by decide
  refine ⟨?_, hbytes, by decide, fun h => absurd (eq_of_counted hbytes h) (by decide)⟩
  have hplacement : checkPlacement (placedOn "S1") = .ok sampleRef := by decide
  have hclaim : (placedCluster "S1").claims.find sampleRef.key = some sampleClaim := rfl
  exact verify_run hplacement hclaim (by decide) rfl (by decide)

end run

end Distort.Manager.Agreement
