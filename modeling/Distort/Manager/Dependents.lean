import Distort.Lib.Machine
import Distort.Lib.Store
import Distort.Manager.Claim
import Distort.Manager.Placement

/-!
A claim outlives its dependents, unless a placement is late.

Any number of placements and of reconciliations of claims, one at a time for each object, with fresh reads.
Others create claims and partitions, delete them and write about them what they like, except for the reference
of a partition and the cleanup finalizer of a claim.

* `outlives_dependents` — if every placement names a claim that is stored and live when it is written, then no
  stored partition refers to a claim whose cleanup finalizer was removed;
* `placed_on_finalized` — a placement that has read the claim before its finalization is written after it.
-/

namespace Distort.Manager.Dependents

open Go Lib Lib.Kube Api Proc

/-! ### The state -/

structure World where
  partitions : Store NVMePartitionSpec NVMePartitionStatus
  claims : Store NVMeDeviceClaimSpec NVMeDeviceClaimStatus
  devices : Store NVMeDeviceSpec NVMeDeviceStatus
  /-- The identities of all claims that there ever were. -/
  issued : List Str
  /-- The identities of the claims whose cleanup finalizer was removed. -/
  finalized : List Str

/-- What others do. -/
inductive Change where
  /-- A partition is created without a placement. -/
  | createPartition (uid : Str) (obj : NVMePartition)
  | deletePartition (key : Key)
  /-- Any write that leaves the reference alone. -/
  | writePartition (obj : NVMePartition)
  | createClaim (uid : Str) (obj : NVMeDeviceClaim)
  | deleteClaim (key : Key)
  /-- Any write that leaves the cleanup finalizer alone. -/
  | writeClaim (obj : NVMeDeviceClaim)
  | devices (devices : Store NVMeDeviceSpec NVMeDeviceStatus)

structure Choice where
  fate : Fate := .ok
  node : Except Err RDMAStorageNode := .error notFound
  nodes : List RDMAStorageNode := []
  time : ℤ := 0
  change : Change := .deleteClaim ⟨[], []⟩

/-- The claim has its cleanup finalizer. -/
def guarded (claim : NVMeDeviceClaim) : Bool := claim.containsFinalizer Claim.claimFinalizer

namespace World

/-- The claims are written under a key; a cleanup finalizer that is gone is noted. -/
def writeClaims (key : Key) (r : Except Err NVMeDeviceClaim × Store NVMeDeviceClaimSpec NVMeDeviceClaimStatus)
    (w : World) : Except Err NVMeDeviceClaim × World :=
  let finalized := match w.claims.find key, r.1 with
    | some old, .ok new => if guarded old && !guarded new then old.metadata.uid :: w.finalized else w.finalized
    | _, _ => w.finalized
  (r.1, { w with claims := r.2, finalized })

def updatePartition (obj : NVMePartition) (w : World) : Except Err NVMePartition × World :=
  let r := w.partitions.update (fun old new => new.size = old.size) obj
  (r.1, { w with partitions := r.2 })

def patchPartition (base obj : NVMePartition) (w : World) : Except Err NVMePartition × World :=
  let r := w.partitions.patchStatus NVMePartitionStatus.merge base obj
  (r.1, { w with partitions := r.2 })

def patchDevice (base obj : NVMeDevice) (w : World) : Except Err NVMeDevice × World :=
  let r := w.devices.patchStatus NVMeDeviceStatus.merge base obj
  (r.1, { w with devices := r.2 })

/-- What a write of others makes of a stored partition. -/
def writtenPartition (w : World) (stored obj : NVMePartition) : NVMePartition :=
  w.partitions.stamp { obj with
    metadata := { obj.metadata with
      ns := stored.metadata.ns, name := stored.metadata.name, uid := stored.metadata.uid
      deletionTimestamp := stored.metadata.deletionTimestamp }
    spec := { obj.spec with claimRef := stored.spec.claimRef } }

/-- What a write of others makes of a stored claim. -/
def writtenClaim (w : World) (stored obj : NVMeDeviceClaim) : NVMeDeviceClaim :=
  w.claims.stamp { obj with
    metadata := { obj.metadata with
      ns := stored.metadata.ns, name := stored.metadata.name, uid := stored.metadata.uid
      deletionTimestamp := stored.metadata.deletionTimestamp } }

def change (w : World) : Change → Option World
  | .createPartition uid obj =>
    if w.partitions.find obj.key = none ∧ obj.spec.claimRef = none then
      some { w with partitions := (w.partitions.create uid ({} : NVMePartitionStatus) obj).2 }
    else none
  | .deletePartition key => some { w with partitions := (w.partitions.delete key).2 }
  | .writePartition obj => (w.partitions.find obj.key).map fun stored =>
      { w with partitions := w.partitions.put obj.key (w.writtenPartition stored obj).settle }
  | .createClaim uid obj =>
    if w.claims.find obj.key = none ∧ uid ∉ w.issued then
      some { w with
        claims := (w.claims.create uid ({} : NVMeDeviceClaimStatus) obj).2, issued := uid :: w.issued }
    else none
  | .deleteClaim key => some { w with claims := (w.claims.delete key).2 }
  | .writeClaim obj => (w.claims.find obj.key).bind fun stored =>
      if guarded obj = guarded stored then
        some { w with claims := w.claims.put obj.key (w.writtenClaim stored obj).settle }
      else none
  | .devices devices => some { w with devices }

end World

/-! ### The system -/

/-- A reconciliation of a partition or of a claim. -/
inductive Job where
  | place (key : Key)
  | claim (key : Key)
  deriving DecidableEq

def answer (ch : Choice) : (c : Call) → World → Option (c.Resp × World)
  | .api (.get .partition _ key), w => ch.fate.answer w (found (w.partitions.find key), w)
  | .api (.list .partition _), w => ch.fate.answer w (.ok w.partitions.objects, w)
  | .api (.get .claim _ key), w => ch.fate.answer w (found (w.claims.find key), w)
  | .api (.get .device _ key), w => ch.fate.answer w (found (w.devices.find key), w)
  | .api (.list .device _), w => ch.fate.answer w (.ok w.devices.objects, w)
  | .api (.get .node _ _), w => some (ch.node, w)
  | .api (.list .node _), w => ch.fate.answer w (.ok ch.nodes, w)
  | .api (.patchStatus .partition base obj), w => ch.fate.answerAny w (w.patchPartition base obj)
  | .api (.update .partition obj), w => ch.fate.answerAny w (w.updatePartition obj)
  | .api (.patchStatus .device base obj), w => ch.fate.answerAny w (w.patchDevice base obj)
  | .api (.patchStatus .claim base obj), w => ch.fate.answerAny w
      (w.writeClaims obj.key (w.claims.patchStatus NVMeDeviceClaimStatus.merge base obj))
  | .api (.update .claim obj), w => ch.fate.answerAny w
      (w.writeClaims obj.key (w.claims.update (fun _ _ => true) obj))
  | .api (.patch .claim base obj), w => ch.fate.answerAny w
      (w.writeClaims obj.key (w.claims.patch base obj))
  | .proc .now, w => some (ch.time, w)
  | .proc (.lock _), w => some ((), w)
  | .proc (.unlock _), w => some ((), w)
  | _, _ => none

def initial (w : World) : Prop := w.partitions.objects = [] ∧ w.claims.objects = [] ∧ w.finalized = []

/-- **The system of the two reconcilers.** -/
def machine [StdLib] : Machine Call Call.Resp World Job Choice Unit where
  body
    | .place key => reconcile .api key >>= fun _ => .ret ()
    | .claim key => Claim.reconcile .api key >>= fun _ => .ret ()
  answer ch _ := answer ch
  change ch w := w.change ch.change
  init := initial
  together i j := i ≠ j

/-- The claim that a placement names is stored and not marked for deletion when the placement is written. -/
def namesLive (_ : Job) (c : Call) (w : World) : Bool :=
  match c with
  | .api (.update .partition obj) => obj.spec.claimRef.all fun ref =>
    (w.claims.find ref.key).any fun c => c.metadata.uid = ref.uid && !c.metadata.deletionTimestamp
  | _ => true

/-! ### Invariant -/

/-- No claim of this identity is live, or will be, and no partition refers to it. -/
structure Free (uid : Str) (w : World) : Prop where
  issued : uid ∈ w.issued
  dead : ∀ c ∈ w.claims.objects, c.metadata.uid = uid → c.metadata.deletionTimestamp = true
  unused : ∀ p ∈ w.partitions.objects, ∀ ref, p.spec.claimRef = some ref → ref.uid ≠ uid

structure Inv (w : World) : Prop where
  ok : w.claims.Ok
  issued : ∀ c ∈ w.claims.objects, c.metadata.uid ∈ w.issued
  unique : ∀ c ∈ w.claims.objects, ∀ c' ∈ w.claims.objects, c.metadata.uid = c'.metadata.uid → c.key = c'.key
  finalized : ∀ uid ∈ w.finalized, Free uid w

/-- The claim under the key, once it is marked for deletion, stays as long as it has its cleanup finalizer. -/
def Keeps (key : Key) (w w' : World) : Prop :=
  ∀ c ∈ w.claims.objects, c.key = key → c.metadata.deletionTimestamp = true → guarded c = true →
    ∃ c' ∈ w'.claims.objects, c'.key = key ∧ c'.metadata.uid = c.metadata.uid ∧
      c'.metadata.deletionTimestamp = true ∧ guarded c' = true

/-- What others do: nobody takes the claim of a reconciliation away. -/
structure Rely (j : Job) (w w' : World) : Prop where
  free : ∀ uid, Free uid w → Free uid w'
  kept : ∀ key, j = .claim key → Keeps key w w'

/-- What a reconciliation does: it takes no claim away but its own. -/
structure Guar (j : Job) (w w' : World) : Prop where
  free : ∀ uid, Free uid w → Free uid w'
  kept : ∀ key, j ≠ .claim key → Keeps key w w'

/-- What has to hold when a reconciliation makes a call. -/
def Req (j : Job) (c : Call) (w : World) : Prop :=
  match c with
  | .api (.update .claim obj) => guarded obj = true
  | .api (.patch .claim _ obj) => j = .claim obj.key ∧ ∀ c ∈ w.claims.objects, c.key = obj.key → Free c.metadata.uid w
  | _ => True

variable {w w' : World} {j : Job}

theorem Keeps.refl (key : Key) (w : World) : Keeps key w w := fun c hc hk hm hg => ⟨c, hc, hk, rfl, hm, hg⟩

theorem Keeps.trans {key : Key} {w1 w2 w3 : World} (h : Keeps key w1 w2) (h' : Keeps key w2 w3) : Keeps key w1 w3 := by
  intro c hc hk hm hg
  obtain ⟨c', hc', hk', hu', hm', hg'⟩ := h c hc hk hm hg
  obtain ⟨c'', hc'', hk'', hu'', hm'', hg''⟩ := h' c' hc' hk' hm' hg'
  exact ⟨c'', hc'', hk'', hu''.trans hu', hm'', hg''⟩

theorem Rely.refl (j : Job) (w : World) : Rely j w w := ⟨fun _ => id, fun key _ => .refl key w⟩

theorem Rely.trans {w1 w2 w3 : World} (h : Rely j w1 w2) (h' : Rely j w2 w3) : Rely j w1 w3 :=
  ⟨fun uid hu => h'.free uid (h.free uid hu), fun key hj => (h.kept key hj).trans (h'.kept key hj)⟩

/-- What is harmless to everybody. -/
structure Harmless (w w' : World) : Prop where
  free : ∀ uid, Free uid w → Free uid w'
  kept : ∀ key, Keeps key w w'

theorem Harmless.refl (w : World) : Harmless w w := ⟨fun _ => id, fun key => .refl key w⟩

theorem Harmless.rely (h : Harmless w w') (j : Job) : Rely j w w' := ⟨h.free, fun key _ => h.kept key⟩

theorem Harmless.guar (h : Harmless w w') (j : Job) : Guar j w w' := ⟨h.free, fun key _ => h.kept key⟩

/-! ### Writes on partitions -/

theorem Inv.setPartitions (h : Inv w) {s : Store NVMePartitionSpec NVMePartitionStatus}
    (hs : ∀ p ∈ s.objects, ∀ ref, p.spec.claimRef = some ref →
      (∃ p0 ∈ w.partitions.objects, p0.spec.claimRef = some ref) ∨
      ∃ c ∈ w.claims.objects, c.metadata.uid = ref.uid ∧ c.metadata.deletionTimestamp = false) :
    Inv { w with partitions := s } ∧ Harmless w { w with partitions := s } := by
  have hfree : ∀ uid, Free uid w → Free uid { w with partitions := s } := by
    intro uid hu
    refine ⟨hu.issued, hu.dead, fun p hp ref href heq => ?_⟩
    rcases hs p hp ref href with ⟨p0, hp0, hr0⟩ | ⟨c, hc, hcu, hlive⟩
    · exact hu.unused p0 hp0 ref hr0 heq
    have hdead := hu.dead c hc (hcu.trans heq)
    rw [hlive] at hdead
    cases hdead
  exact ⟨⟨h.ok, h.issued, h.unique, fun uid hu => hfree uid (h.finalized uid hu)⟩, hfree, fun key => .refl key w⟩

theorem Inv.putPartition (h : Inv w) {key : Key} {p : NVMePartition} {v : Option NVMePartition}
    (hf : w.partitions.find key = some p) (hv : ∀ q, v = some q → q.spec.claimRef = p.spec.claimRef) :
    Inv { w with partitions := w.partitions.put key v } ∧
      Harmless w { w with partitions := w.partitions.put key v } := by
  refine h.setPartitions fun q hq ref href => .inl ?_
  rcases Store.mem_put.1 hq with ⟨hold, -⟩ | ⟨hnew, -⟩
  · exact ⟨q, hold, href⟩
  · exact ⟨p, (Store.mem_of_find hf).1, (hv q hnew).symm.trans href⟩

theorem Inv.patchPartition (h : Inv w) (base obj : NVMePartition) :
    Inv (w.patchPartition base obj).2 ∧ Harmless w (w.patchPartition base obj).2 := by
  unfold World.patchPartition
  rcases Store.patchStatus_cases (s := w.partitions) NVMePartitionStatus.merge base obj with
    ⟨-, heq⟩ | ⟨p, hf, heq⟩
  · rw [heq]
    exact ⟨h, .refl w⟩
  · rw [heq]
    exact h.putPartition hf (by rintro q ⟨⟩; rfl)

theorem Inv.updatePartition (h : Inv w) {obj : NVMePartition} (hlive : namesLive j (.api (.update .partition obj)) w = true) :
    Inv (w.updatePartition obj).2 ∧ Harmless w (w.updatePartition obj).2 := by
  unfold World.updatePartition
  rcases Store.update_cases (s := w.partitions) (o := obj) (fun old new => decide (new.size = old.size)) with
    ⟨err, heq⟩ | ⟨p, hf, -, -, heq⟩
  · rw [heq]
    exact ⟨h, .refl w⟩
  · rw [heq]
    refine h.setPartitions fun q hq ref href => ?_
    rcases Store.mem_put.1 hq with ⟨hold, -⟩ | ⟨hnew, -⟩
    · exact .inl ⟨q, hold, href⟩
    rw [settle_eq_some hnew] at href
    have hspec : obj.spec.claimRef = some ref := href
    simp only [namesLive, hspec, Option.all_some, Option.any_eq_true, Bool.and_eq_true, decide_eq_true_eq,
      Bool.not_eq_true'] at hlive
    obtain ⟨c, hc, hu, hl⟩ := hlive
    exact .inr ⟨c, (Store.mem_of_find hc).1, hu, hl⟩

/-! ### Writes on claims -/

/-- What a write may make of a stored claim. -/
structure Follows (s : Store NVMeDeviceClaimSpec NVMeDeviceClaimStatus) (c q : NVMeDeviceClaim) : Prop where
  key : q.key = c.key
  version : q.metadata.resourceVersion = s.version + 1
  uid : q.metadata.uid = c.metadata.uid
  marked : c.metadata.deletionTimestamp = true → q.metadata.deletionTimestamp = true

variable {c : NVMeDeviceClaim}

/-- A claim is replaced or removed; its removed finalizer may be noted, if nothing depends on it. -/
theorem Inv.putClaim (h : Inv w) {v : Option NVMeDeviceClaim} {finalized : List Str}
    (hc : c ∈ w.claims.objects) (hv : ∀ q, v = some q → Follows w.claims c q)
    (hfin : finalized = w.finalized ∨ finalized = c.metadata.uid :: w.finalized ∧ Free c.metadata.uid w) :
    Inv { w with claims := w.claims.put c.key v, finalized } ∧
    (∀ uid, Free uid w → Free uid { w with claims := w.claims.put c.key v, finalized }) ∧
    (∀ key, key ≠ c.key → Keeps key w { w with claims := w.claims.put c.key v, finalized }) ∧
    ((guarded c = true → ∃ q, v = some q ∧ guarded q = true) →
      Keeps c.key w { w with claims := w.claims.put c.key v, finalized }) := by
  have hmem : ∀ q ∈ (w.claims.put c.key v).objects, ∃ c0 ∈ w.claims.objects, c0.key = q.key ∧
      c0.metadata.uid = q.metadata.uid ∧
      (c0.metadata.deletionTimestamp = true → q.metadata.deletionTimestamp = true) := by
    intro q hq
    rcases Store.mem_put.1 hq with ⟨hold, -⟩ | ⟨hnew, -⟩
    · exact ⟨q, hold, rfl, rfl, id⟩
    · have hfollows := hv q hnew
      exact ⟨c, hc, hfollows.key.symm, hfollows.uid.symm, hfollows.marked⟩
  have hfree : ∀ uid, Free uid w → Free uid { w with claims := w.claims.put c.key v, finalized } := by
    intro uid hu
    refine ⟨hu.issued, fun q hq hquid => ?_, hu.unused⟩
    obtain ⟨c0, hc0, -, hu0, hm0⟩ := hmem q hq
    exact hm0 (hu.dead c0 hc0 (hu0.trans hquid))
  refine ⟨⟨h.ok.put fun q hq => ⟨(hv q hq).key, (hv q hq).version⟩, fun q hq => ?_, fun q hq q' hq' heq => ?_,
    fun uid hu => hfree uid ?_⟩, hfree, fun key hne x hx hxk hm hg => ?_, fun hkeep x hx hxk hm hg => ?_⟩
  · obtain ⟨c0, hc0, -, hu0, -⟩ := hmem q hq
    exact hu0 ▸ h.issued c0 hc0
  · obtain ⟨c0, hc0, hk0, hu0, -⟩ := hmem q hq
    obtain ⟨c1, hc1, hk1, hu1, -⟩ := hmem q' hq'
    rw [← hk0, ← hk1]
    exact h.unique c0 hc0 c1 hc1 (hu0.trans (heq.trans hu1.symm))
  · rcases hfin with rfl | ⟨rfl, hfc⟩
    · exact h.finalized uid hu
    rcases List.mem_cons.1 hu with rfl | hold
    · exact hfc
    · exact h.finalized uid hold
  · exact ⟨x, Store.mem_put.2 (.inl ⟨hx, hxk ▸ hne⟩), hxk, rfl, hm, hg⟩
  · obtain rfl := h.ok.eq_of_key hx hc hxk
    obtain ⟨q, hq, hgq⟩ := hkeep hg
    exact ⟨q, Store.mem_put.2 (.inr ⟨hq, x, hx, rfl⟩), (hv q hq).key, (hv q hq).uid, (hv q hq).marked hm, hgq⟩

theorem Inv.putGuarded (h : Inv w) {v : Option NVMeDeviceClaim} (hc : c ∈ w.claims.objects)
    (hv : ∀ q, v = some q → Follows w.claims c q) (hkeep : guarded c = true → ∃ q, v = some q ∧ guarded q = true) :
    Inv { w with claims := w.claims.put c.key v } ∧ Harmless w { w with claims := w.claims.put c.key v } := by
  obtain ⟨hi, hfree, hothers, hown⟩ := h.putClaim hc hv (.inl rfl)
  refine ⟨hi, hfree, fun key => ?_⟩
  by_cases hk : key = c.key
  · exact hk ▸ hown hkeep
  · exact hothers key hk

theorem settle_of_guarded (h : guarded c = true) : c.settle = some c :=
  settle_of_mem (containsFinalizer_iff.1 h)

theorem Inv.patchClaimStatus (h : Inv w) (base obj : NVMeDeviceClaim) :
    Inv (w.writeClaims obj.key (w.claims.patchStatus NVMeDeviceClaimStatus.merge base obj)).2 ∧
    Harmless w (w.writeClaims obj.key (w.claims.patchStatus NVMeDeviceClaimStatus.merge base obj)).2 := by
  unfold World.writeClaims
  rcases Store.patchStatus_cases (s := w.claims) NVMeDeviceClaimStatus.merge base obj with ⟨hf, heq⟩ | ⟨c, hf, heq⟩
  · rw [heq, hf]
    exact ⟨h, .refl w⟩
  obtain ⟨hc, hk⟩ := Store.mem_of_find hf
  have hsame : (guarded c && !guarded (w.claims.stamp
      { c with status := NVMeDeviceClaimStatus.merge base.status obj.status c.status })) = false :=
    Bool.and_not_self (guarded c)
  rw [heq, hf]
  simp only [hsame, Bool.false_eq_true, if_false]
  rw [← hk]
  refine h.putGuarded hc ?_ fun hg => ⟨_, rfl, hg⟩
  rintro q ⟨⟩
  exact ⟨rfl, rfl, rfl, id⟩

variable {obj : NVMeDeviceClaim}

theorem Inv.updateClaim (h : Inv w) (hg : guarded obj = true) :
    Inv (w.writeClaims obj.key (w.claims.update (fun _ _ => true) obj)).2 ∧
    Harmless w (w.writeClaims obj.key (w.claims.update (fun _ _ => true) obj)).2 := by
  unfold World.writeClaims
  rcases Store.update_cases (s := w.claims) (o := obj) (fun _ _ => true) with ⟨err, heq⟩ | ⟨c, hf, -, -, heq⟩
  · rw [heq]
    cases w.claims.find obj.key <;> exact ⟨h, .refl w⟩
  obtain ⟨hc, hk⟩ := Store.mem_of_find hf
  have hnew : guarded (w.claims.updated c obj) = true := hg
  rw [heq, hf]
  simp only [hnew, Bool.not_true, Bool.and_false, Bool.false_eq_true, if_false]
  rw [← hk, settle_of_guarded hnew]
  refine h.putGuarded hc ?_ fun _ => ⟨_, rfl, hnew⟩
  rintro q ⟨⟩
  exact ⟨rfl, rfl, rfl, id⟩

/-- **The patch of a finalization**: nothing depends on the claim that is stored. -/
theorem Inv.patchClaim (h : Inv w) (base : NVMeDeviceClaim)
    (hfree : ∀ c ∈ w.claims.objects, c.key = obj.key → Free c.metadata.uid w) :
    Inv (w.writeClaims obj.key (w.claims.patch base obj)).2 ∧
    Guar (.claim obj.key) w (w.writeClaims obj.key (w.claims.patch base obj)).2 := by
  unfold World.writeClaims
  rcases Store.patch_cases (s := w.claims) base obj with ⟨err, heq⟩ | ⟨c, hf, heq⟩
  · rw [heq]
    cases w.claims.find obj.key <;> exact ⟨h, (Harmless.refl w).guar _⟩
  obtain ⟨hc, hk⟩ := Store.mem_of_find hf
  rw [heq, hf]
  simp only
  rw [← hk]
  have hfin : (if guarded c && !guarded (w.claims.stamp (Object.patchFinalizers base obj c)) then
      c.metadata.uid :: w.finalized else w.finalized) = w.finalized ∨
      (if guarded c && !guarded (w.claims.stamp (Object.patchFinalizers base obj c)) then
        c.metadata.uid :: w.finalized else w.finalized) = c.metadata.uid :: w.finalized ∧ Free c.metadata.uid w := by
    split
    · exact .inr ⟨rfl, hfree c hc hk⟩
    · exact .inl rfl
  obtain ⟨hi, hmoves, hothers, -⟩ := h.putClaim
    (v := (w.claims.stamp (Object.patchFinalizers base obj c)).settle) hc
    (fun q hq => by rw [settle_eq_some hq]; exact ⟨rfl, rfl, rfl, id⟩) hfin
  exact ⟨hi, hmoves, fun key hne => hothers key fun heq => hne (heq ▸ rfl)⟩

/-! ### Others -/

theorem Inv.createClaim (h : Inv w) {uid : Str} (hw : w.change (.createClaim uid obj) = some w') :
    Inv w' ∧ Harmless w w' := by
  simp only [World.change, Option.ite_none_right_eq_some, Option.some.injEq] at hw
  obtain ⟨⟨hf, hnew⟩, rfl⟩ := hw
  have hadd : (w.claims.create uid ({} : NVMeDeviceClaimStatus) obj).2 = w.claims.add (w.claims.admitted uid {} obj) := by
    simp only [Store.create, hf]
  rw [hadd]
  have hmem : ∀ c ∈ (w.claims.add (w.claims.admitted uid {} obj)).objects,
      c ∈ w.claims.objects ∨ c = w.claims.admitted uid {} obj := by
    intro c hc
    rcases List.mem_append.1 hc with hold | hlast
    · exact .inl hold
    · exact .inr (List.mem_singleton.1 hlast)
  have hfree : ∀ u, Free u w → Free u { w with
      claims := w.claims.add (w.claims.admitted uid {} obj), issued := uid :: w.issued } := by
    intro u hu
    refine ⟨List.mem_cons_of_mem _ hu.issued, fun c hc hcu => ?_, hu.unused⟩
    rcases hmem c hc with hold | rfl
    · exact hu.dead c hold hcu
    · have hcu' : uid = u := hcu
      exact absurd (hcu' ▸ hu.issued) hnew
  refine ⟨⟨h.ok.add hf rfl, fun c hc => ?_, fun c hc c' hc' heq => ?_, fun u hu => hfree u (h.finalized u hu)⟩, hfree,
    fun key c hc hk hm hg => ⟨c, List.mem_append_left _ hc, hk, rfl, hm, hg⟩⟩
  · rcases hmem c hc with hold | rfl
    · exact List.mem_cons_of_mem _ (h.issued c hold)
    · exact List.mem_cons_self
  · rcases hmem c hc with hold | rfl <;> rcases hmem c' hc' with hold' | rfl
    · exact h.unique c hold c' hold' heq
    · have heq' : c.metadata.uid = uid := heq
      exact absurd (heq' ▸ h.issued c hold) hnew
    · have heq' : uid = c'.metadata.uid := heq
      exact absurd (heq' ▸ h.issued c' hold') hnew
    · rfl

/-- **Whatever others do is harmless.** -/
theorem Inv.change (h : Inv w) {ch : Change} (hw : w.change ch = some w') : Inv w' ∧ Harmless w w' := by
  cases ch with
  | createPartition uid obj =>
    simp only [World.change, Option.ite_none_right_eq_some, Option.some.injEq] at hw
    obtain ⟨⟨hf, hnone⟩, rfl⟩ := hw
    refine h.setPartitions fun p hp ref href => .inl ?_
    simp only [Store.create, hf] at hp
    rcases List.mem_append.1 hp with hold | hlast
    · exact ⟨p, hold, href⟩
    obtain rfl := List.mem_singleton.1 hlast
    have : obj.spec.claimRef = some ref := href
    rw [hnone] at this
    cases this
  | deletePartition key =>
    cases hw
    rcases Store.delete_cases (s := w.partitions) key with ⟨-, heq⟩ | ⟨p, hf, heq⟩
    · rw [heq]
      exact ⟨h, .refl w⟩
    rw [heq]
    refine h.putPartition hf fun q hq => ?_
    obtain ⟨q0, hq0, rfl⟩ := Option.map_eq_some_iff.1 hq
    obtain ⟨-, -, -, -, -, -, hspec, -⟩ := delete_eq_some hq0
    exact congrArg NVMePartitionSpec.claimRef hspec
  | writePartition obj =>
    obtain ⟨p, hf, rfl⟩ := Option.map_eq_some_iff.1 hw
    exact h.putPartition hf fun q hq => by rw [settle_eq_some hq]; rfl
  | createClaim uid obj => exact h.createClaim hw
  | deleteClaim key =>
    cases hw
    rcases Store.delete_cases (s := w.claims) key with ⟨-, heq⟩ | ⟨c, hf, heq⟩
    · rw [heq]
      exact ⟨h, .refl w⟩
    obtain ⟨hc, rfl⟩ := Store.mem_of_find hf
    rw [heq]
    refine h.putGuarded hc (fun q hq => ?_) fun hg => ?_
    · obtain ⟨q0, hq0, rfl⟩ := Option.map_eq_some_iff.1 hq
      obtain ⟨-, hm, -, -, hu, hk, -, -⟩ := delete_eq_some hq0
      exact ⟨hk, rfl, hu, fun _ => hm⟩
    · cases hd : c.delete with
      | none =>
        have hmem := containsFinalizer_iff.1 hg
        rw [delete_eq_none hd] at hmem
        cases hmem
      | some q0 =>
        obtain ⟨-, -, hfs, -⟩ := delete_eq_some hd
        refine ⟨_, rfl, ?_⟩
        rw [guarded, containsFinalizer_iff] at hg ⊢
        exact hfs.symm ▸ hg
  | writeClaim obj =>
    obtain ⟨c, hf, hite⟩ := Option.bind_eq_some_iff.1 hw
    obtain ⟨hsame, rfl⟩ := (Option.ite_none_right_eq_some.1 hite).imp_right Option.some.inj
    obtain ⟨hc, hk⟩ := Store.mem_of_find hf
    rw [← hk]
    refine h.putGuarded hc (fun q hq => by rw [settle_eq_some hq]; exact ⟨rfl, rfl, rfl, id⟩) fun hg => ?_
    have hnew : guarded (w.writtenClaim c obj) = true := hsame.trans hg
    exact ⟨_, settle_of_guarded hnew, hnew⟩
  | devices devices =>
    cases hw
    exact ⟨⟨h.ok, h.issued, h.unique, fun uid hu => ⟨(h.finalized uid hu).issued, (h.finalized uid hu).dead,
      (h.finalized uid hu).unused⟩⟩, fun uid hu => ⟨hu.issued, hu.dead, hu.unused⟩, fun key => .refl key w⟩

/-! ### Calls -/

/-- A patch of a claim. -/
def finalizes : Call → Bool
  | .api (.patch .claim _ _) => true
  | _ => false

/-- **Every call keeps the invariant**, and only a patch of a claim is not harmless. -/
theorem answer_kept (h : Inv w) {ch : Choice} {c : Call} {r : c.Resp} (hlive : namesLive j c w = true)
    (hreq : Req j c w) (ha : answer ch c w = some (r, w')) :
    Inv w' ∧ Guar j w w' ∧ (finalizes c = false → Harmless w w') := by
  have hmove : ∀ {w1 : World}, Inv w1 ∧ Harmless w w1 → (w' = w ∨ w' = w1) →
      Inv w' ∧ Guar j w w' ∧ (finalizes c = false → Harmless w w') := by
    rintro w1 ⟨hi, hh⟩ (rfl | rfl)
    · exact ⟨h, (Harmless.refl w').guar j, fun _ => .refl w'⟩
    · exact ⟨hi, hh.guar j, fun _ => hh⟩
  have hsame : Inv w ∧ Harmless w w := ⟨h, .refl w⟩
  unfold answer at ha
  split at ha
  · exact hmove hsame (Fate.answer_state ha)
  · exact hmove hsame (Fate.answer_state ha)
  · exact hmove hsame (Fate.answer_state ha)
  · exact hmove hsame (Fate.answer_state ha)
  · exact hmove hsame (Fate.answer_state ha)
  · exact hmove hsame (.inl (Prod.mk.inj (Option.some.inj ha)).2.symm)
  · exact hmove hsame (Fate.answer_state ha)
  · exact hmove (h.patchPartition _ _) (Fate.answerWith_state ha)
  · exact hmove (h.updatePartition hlive) (Fate.answerWith_state ha)
  · rename_i base obj
    have hdevices : w.change (.devices (w.patchDevice base obj).2.devices) = some (w.patchDevice base obj).2 := rfl
    exact hmove (h.change hdevices) (Fate.answerWith_state ha)
  · exact hmove (h.patchClaimStatus _ _) (Fate.answerWith_state ha)
  · exact hmove (h.updateClaim hreq) (Fate.answerWith_state ha)
  · rename_i base obj
    obtain ⟨hj, hfree⟩ := hreq
    obtain ⟨hi, hguar⟩ := h.patchClaim base hfree
    rcases Fate.answerWith_state ha with rfl | rfl
    · exact ⟨h, (Harmless.refl w').guar j, fun _ => .refl w'⟩
    · exact ⟨hi, hj ▸ hguar, nofun⟩
  · exact hmove hsame (.inl (Prod.mk.inj (Option.some.inj ha)).2.symm)
  · exact hmove hsame (.inl (Prod.mk.inj (Option.some.inj ha)).2.symm)
  · exact hmove hsame (.inl (Prod.mk.inj (Option.some.inj ha)).2.symm)
  · cases ha

/-! ### The reconciliations -/

theorem inv_of_initial (h : initial w) : Inv w := by
  obtain ⟨hp, hc, hf⟩ := h
  refine ⟨⟨by simp [hc], by simp [hc]⟩, by simp [hc], by simp [hc], by simp [hf]⟩

section

variable [StdLib]

def outline : Outline (machine.guarded namesLive).system where
  Inv := Inv
  Rely := Rely
  Guar := Guar
  Req := Req
  Post _ _ _ := True
  rely_refl := Rely.refl
  rely_trans _ := Rely.trans
  init _ hw := inv_of_initial hw
  env := by
    rintro w w' hi ⟨ch, hw⟩
    obtain ⟨hi', hh⟩ := hi.change hw
    exact ⟨hi', fun j => hh.rely j⟩
  guar i j w w' htog _ _ hg := by
    have hne : i ≠ j := of_decide_eq_true htog
    exact ⟨hg.free, fun key hj => hg.kept key fun hi => hne (hi.trans hj.symm)⟩

theorem closed : outline.Closed := fun hi hreq hlive ha => (answer_kept hi hlive hreq ha).imp_right And.left

/-- A call that writes no claim but for its status. -/
def leaves : Call → Bool
  | .api (.update .claim _) | .api (.patch .claim _ _) => false
  | _ => true

omit [StdLib] in
theorem of_leaves {c : Call} (hc : leaves c = true) : finalizes c = false ∧ ∀ w, Req j c w := by
  unfold leaves at hc
  split at hc
  · cases hc
  · cases hc
  rename_i hu hp'
  constructor
  · unfold finalizes
    split
    · exact absurd rfl (hp' _ _)
    · rfl
  · intro w
    unfold Req
    split
    · exact absurd rfl (hu _)
    · exact absurd rfl (hp' _ _)
    · trivial

theorem leaves_safe {α : Type} {p : Proc α} {I : World → Prop} (hp : p.Only (leaves ·)) (hw : I w)
    (hI : ∀ w1 w2, I w1 → Rely j w1 w2 → I w2) : outline.Safe j (fun _ => I) p w := by
  refine closed.only hp hw hI (fun _ w1 hc _ => (of_leaves hc).2 w1) fun _ c w1 _ w2 hc hi h hlive ha _ => ?_
  obtain ⟨hfinalizes, hreq⟩ := of_leaves (j := j) hc
  exact hI w1 w2 h (((answer_kept hi hlive (hreq w1) ha).2.2 hfinalizes).rely j)

theorem place_safe (key : Key) (w : World) : outline.Complies j (reconcile .api key) w := by
  refine closed.complies (P := (leaves ·)) ?_ fun _ w1 hc => (of_leaves hc).2 w1
  refine reconcile_only (fun c hc => ?_) (fun _ => rfl) (fun _ _ => ⟨rfl, rfl⟩) (fun _ => rfl) key
  unfold leaves
  split
  · cases hc
  · cases hc
  · rfl

omit [StdLib] in
theorem leaves_of_records (c : Call) (hc : Claim.records .api c = true) : leaves c = true := by
  unfold leaves
  split
  · cases hc
  · cases hc
  · rfl

/-- The claim under finalization is the stored one. -/
def Held (key : Key) (claim : NVMeDeviceClaim) (w : World) : Prop :=
  ∃ c ∈ w.claims.objects, c.key = key ∧ c.metadata.uid = claim.metadata.uid ∧
    c.metadata.deletionTimestamp = true ∧ guarded c = true

variable {key : Key} {claim : NVMeDeviceClaim}

omit [StdLib] in
theorem Held.mono (h : Held key claim w) (hr : Rely (.claim key) w w') : Held key claim w' := by
  obtain ⟨c, hc, hk, hu, hm, hg⟩ := h
  obtain ⟨c', hc', hk', hu', hm', hg'⟩ := hr.kept key rfl c hc hk hm hg
  exact ⟨c', hc', hk', hu'.trans hu, hm', hg'⟩

omit [StdLib] in
/-- A claim marked for deletion that no stored partition refers to is free for good. -/
theorem Held.free (h : Held key claim w) (hi : Inv w)
    (hnone : w.partitions.objects.any (Claim.dependsOn claim) = false) : Free claim.metadata.uid w := by
  obtain ⟨c, hc, hk, hu, hm, -⟩ := h
  refine ⟨hu ▸ hi.issued c hc, fun c' hc' hu' => ?_, fun p hp ref href heq => ?_⟩
  · have hkey := hi.unique c' hc' c hc (hu'.trans hu.symm)
    rw [hi.ok.eq_of_key hc' hc hkey]
    exact hm
  · have hp' := List.any_eq_false.1 hnone p hp
    simp [Claim.dependsOn, href, heq] at hp'

theorem listPartitions_safe (hw : Held key claim w) : outline.Safe (.claim key) (fun r w1 => Held key claim w1 ∧
      ∀ ps, r = .ok ps → ps.any (Claim.dependsOn claim) = false → Free claim.metadata.uid w1)
      (list .partition .api) w := by
  refine closed.call (fun _ _ _ => trivial)
    (fun _ _ _ h hr => ⟨h.1.mono hr, fun ps hps hnone => hr.free _ (h.2 ps hps hnone)⟩) ?_
  intro ch w1 r w2 hr hi _ ha _ _
  have h1 := hw.mono hr
  obtain rfl : w2 = w1 := (Fate.answerWith_state ha).elim id id
  refine ⟨h1, fun ps hps hnone => ?_⟩
  subst hps
  have hserved : (Except.ok w2.partitions.objects, w2) = (.ok ps, w2) := Fate.answer_ok ha
  cases hserved
  exact h1.free hi hnone

theorem finalizeClaim_safe (hk : claim.key = key) (hw : guarded claim = true → Held key claim w) :
    outline.Complies (.claim key) (Claim.finalizeClaim .api claim) w := by
  unfold Claim.finalizeClaim
  split
  · exact .ended
  rename_i hguarded
  rw [Bool.not_eq_true', Bool.not_eq_false] at hguarded
  refine .next (listPartitions_safe (hw hguarded)) fun ps w1 h1 => ?_
  split
  · exact .ended
  rename_i hnone
  -- from here on the claim is both held and free
  have hI : ∀ w2 w3, Held key claim w2 ∧ Free claim.metadata.uid w2 → Rely (.claim key) w2 w3 →
      Held key claim w3 ∧ Free claim.metadata.uid w3 := fun _ _ h hr => ⟨h.1.mono hr, hr.free _ h.2⟩
  have h1' := And.intro h1.1 (h1.2 ps rfl (Bool.eq_false_iff.2 hnone))
  refine .next (leaves_safe (Claim.releaseMatched_only leaves_of_records (fun _ => rfl) claim) h1' hI) fun _ w2 h2 => ?_
  refine .next (leaves_safe (only_op rfl) h2 hI) fun devices w3 h3 => ?_
  refine .next (leaves_safe (Claim.releaseOthers_only (fun _ => rfl) claim _ devices) h3 hI) fun _ w4 h4 => ?_
  have hpatch : outline.Complies (.claim key)
      (patch .claim claim (claim.removeFinalizer Claim.claimFinalizer)) w4 := by
    refine closed.op fun w5 hr hi => ⟨congrArg Job.claim hk.symm, fun c hc hck => ?_⟩
    obtain ⟨⟨c0, hc0, hk0, hu0, -⟩, hfree⟩ := hI _ _ h4 hr
    rw [hi.ok.eq_of_key hc hc0 (hck.trans (hk.trans hk0.symm)), hu0]
    exact hfree
  exact .next hpatch fun _ _ _ => .ended

theorem claim_safe (key : Key) (w : World) : outline.Complies (.claim key) (Claim.reconcile .api key) w := by
  have hget : outline.Safe (.claim key) (fun r w1 => ∀ claim, r = .ok claim → claim.key = key ∧
      (claim.metadata.deletionTimestamp = true → guarded claim = true → Held key claim w1)) (get .claim .api key) w := by
    refine closed.call (fun _ _ _ => trivial)
      (fun _ _ _ h hr claim hc => ⟨(h claim hc).1, fun hm hg => ((h claim hc).2 hm hg).mono hr⟩) ?_
    intro ch w1 r w2 _ _ _ ha _ _ claim hc
    subst hc
    have hserved : (found (w1.claims.find key), w1) = (.ok claim, w2) := Fate.answer_ok ha
    cases hf : w1.claims.find key with
    | none =>
      rw [hf] at hserved
      cases hserved
    | some c =>
      rw [hf] at hserved
      cases hserved
      obtain ⟨hmem, hk⟩ := Store.mem_of_find hf
      exact ⟨hk, fun hm hg => ⟨claim, hmem, hk, rfl, hm, hg⟩⟩
  unfold Claim.reconcile
  refine .andThen hget (fun _ _ _ => ?_) fun claim w1 h1 => ?_
  · split <;> exact .ended
  obtain ⟨hk, hheld⟩ := h1 claim rfl
  split
  · rename_i hm
    exact finalizeClaim_safe hk (hheld hm)
  have hensure : outline.Complies (.claim key) (Claim.ensureFinalizer claim) w1 := by
    unfold Claim.ensureFinalizer
    split
    · exact .ended
    rename_i hnot
    refine closed.op fun _ _ _ => ?_
    have hadd : claim.addFinalizer Claim.claimFinalizer =
        claim.setFinalizers (claim.metadata.finalizers ++ [Claim.claimFinalizer]) := if_neg hnot
    show guarded (claim.addFinalizer Claim.claimFinalizer) = true
    rw [hadd, guarded, containsFinalizer_iff]
    exact List.mem_append_right _ (List.mem_singleton_self _)
  refine .next hensure fun claim' w2 _ => ?_
  exact closed.complies (Claim.reconcileClaimBinding_only leaves_of_records (fun _ => rfl) claim' fun _ => rfl)
    fun _ w1 hc => (of_leaves hc).2 w1

theorem body_safe (j : Job) (w : World) : outline.Complies j (machine.body j) w := by
  cases j with
  | place key => exact .bind ((place_safe key w).conseq fun _ _ _ _ => .ended)
  | claim key => exact .bind ((claim_safe key w).conseq fun _ _ _ _ => .ended)

/-- **A claim outlives its dependents.**  In every run in which each placement names, when it is written, a claim
that is stored and live, no stored partition refers to a claim whose cleanup finalizer was removed. -/
theorem outlives_dependents {pool : Pool Call Call.Resp World Job Unit}
    (h : (machine.guarded namesLive).system.Reachable pool) {p : NVMePartition} (hp : p ∈ pool.world.partitions.objects)
    {ref : ClaimRef} (href : p.spec.claimRef = some ref) : ref.uid ∉ pool.world.finalized := by
  have hkept : outline.Kept pool := Outline.Kept.reachable (fun j _ w _ _ => body_safe j w) h
  have hi : Inv pool.world := hkept.inv
  exact fun hmem => (hi.finalized ref.uid hmem).unused p hp ref href rfl

end

/-! ### Runs -/

section

attribute [local instance] asciiLib

def sampleWorld : World := ⟨⟨[], 0⟩, ⟨[], 0⟩, ⟨[], 0⟩, [], []⟩

theorem initial_sampleWorld : initial sampleWorld := ⟨rfl, rfl, rfl⟩

def sampleVolume : NVMePartition where
  metadata := { ns := "ns", name := "vol" }
  spec := { size := 4194304 }
  status := {}

/-- The `i`-th reconciliation makes `n` calls. -/
def serve : ℕ → ℕ → List (Act Job Choice) := Act.serve { node := .ok sampleNode, nodes := [sampleNode], time := 1 }

/-- A claim is bound to a free device, and a placement has made all its calls but the last one. -/
def nearlyPlaced : List (Act Job Choice) :=
  [.env { change := .devices ⟨[{ sampleDevice with status := { state := .available } }], 1⟩ },
    .env { change := .createClaim "c1" sampleClaim }, .env { change := .createPartition "u1" sampleVolume },
    .start (.claim sampleClaim.key)] ++ serve 0 6 ++ [.drop 0, .start (.place sampleVolume.key)] ++ serve 0 14

/-- Some partition has a reference to a claim for which the test holds. -/
def refersTo (test : Str → Bool) (w : World) : Bool :=
  w.partitions.objects.any fun p => p.spec.claimRef.any fun ref => test ref.uid

theorem exists_of_refersTo {test : Str → Bool} {w : World} (h : refersTo test w = true) :
    ∃ p ∈ w.partitions.objects, ∃ ref, p.spec.claimRef = some ref ∧ test ref.uid = true := by
  obtain ⟨p, hp, hr⟩ := List.any_eq_true.1 h
  exact ⟨p, hp, (Option.any_eq_true _ _).1 hr⟩

/-- **A partition is placed on a finalized claim.**  The placement has read the claim and the device, all of it
fresh; then the claim is deleted and finalized, since no partition refers to it yet; then the placement is
written. -/
theorem placed_on_finalized : ∃ pool, machine.system.Reachable pool ∧
    ∃ p ∈ pool.world.partitions.objects, ∃ ref, p.spec.claimRef = some ref ∧ ref.uid ∈ pool.world.finalized := by
  obtain ⟨pool, hpool, hp⟩ := Machine.exists_reachable
    (nearlyPlaced ++ [.env { change := .deleteClaim sampleClaim.key }, .start (.claim sampleClaim.key)] ++ serve 0 6 ++
      serve 1 1) sampleWorld
    (fun c => refersTo c.world.finalized.contains c.world)
    (show machine.init sampleWorld from initial_sampleWorld) (by decide +kernel)
  obtain ⟨p, hmem, ref, href, huid⟩ := exists_of_refersTo hp
  exact ⟨pool, hpool, p, hmem, ref, href, List.contains_iff_mem.1 huid⟩

/-- A claim is deleted after the placement is written: its finalization waits. -/
theorem outlives_dependents_placed : ∃ pool, (machine.guarded namesLive).system.Reachable pool ∧
    ∃ p ∈ pool.world.partitions.objects, ∃ ref, p.spec.claimRef = some ref ∧ ref.uid ∉ pool.world.finalized := by
  obtain ⟨pool, hpool, hp⟩ := Machine.exists_reachable
    (nearlyPlaced ++ serve 0 1 ++ [.env { change := .deleteClaim sampleClaim.key }, .start (.claim sampleClaim.key)] ++
      serve 0 2) sampleWorld
    (fun c => refersTo (fun _ => true) c.world)
    (show (machine.guarded namesLive).init sampleWorld from initial_sampleWorld) (by decide +kernel)
  obtain ⟨p, hmem, ref, href, -⟩ := exists_of_refersTo hp
  exact ⟨pool, hpool, p, hmem, ref, href, outlives_dependents hpool hmem href⟩

end

end Distort.Manager.Dependents
