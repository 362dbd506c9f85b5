import Mathlib.Data.List.DropRight
import Distort.Agent.PartitionManager
import Distort.Lib.History
import Distort.Lib.Run
import Distort.Manager.Placement

/-!
New storage is carved only under a live authorization.

A run of the agent is a sequence of passes, and each of them is a trace of `reconcile`: whatever the
claims, the devices and the partition are at each read, a trace has that answer, and a crash cuts it
off.  The plugins are single steps.

* `carved_under_authorization` — each call that carves follows a full verification with no other such
  call in between, in every run in which the binding lasts wherever the agent no longer checks it: in a
  pass for a partition that has an external ID or a volume already, and after the first call that carves;
* `carved_under_inactive_claim` — a pass goes on carving after the claim has become inactive, because it
  has recorded an external ID itself and so counts as recovering.
-/

namespace Distort.Agent.Verification

open Go Lib Lib.Kube Lib.Prog Api Proc

/-! ### What a pass has been told -/

/-- A call with its answer. -/
abbrev Told : Type := Event Call Call.Resp

/-- A call of a plugin that makes storage. -/
def carves : Call → Bool
  | .plugin (.setupDevice _ _ _) | .plugin (.setupStorage _ _) | .plugin (.createVolume _ _ _ _)
  | .plugin (.exportVolume _ _ _ _ _) => true
  | _ => false

/-- The partition that the pass is shown first, then the answer of the server to the patch of the
finalizer. -/
def hold (held : List NVMePartition) (e : Told) : List NVMePartition :=
  match e with
  | ⟨.api (.get .partition _ _), .ok p⟩ => if held = [] then [p] else held
  | ⟨.api (.patch .partition _ _), .ok p⟩ => held ++ [p]
  | _ => held

/-- The partition as the pass has worked with it. -/
def held (es : List Told) : List NVMePartition := es.foldl hold []

/-- What came after the last call that carves. -/
def recent (es : List Told) : List Told := es.rtakeWhile fun e => !carves e.1

/-- **A verification in full**, of the partition that the pass works with and since the last call that
carves: its placement is authorized, its claim (the exact one, not being deleted) is active, and the
device that the claim has matched is claimed by it. -/
def Verified (es : List Told) : Prop :=
  ∃ (p : NVMePartition) (ref : ClaimRef) (claim : NVMeDeviceClaim) (device : NVMeDevice),
    p ∈ held es ∧ PlacementAuth.isAuthorized p = true ∧ p.spec.claimRef = some ref ∧
    [⟨.api (.get .claim .cache ref.key), .ok claim⟩,
      ⟨.api (.get .device .cache ⟨[], claim.status.matchedDevice⟩), .ok device⟩] <:+: recent es ∧
    claim.metadata.uid = ref.uid ∧ claim.metadata.deletionTimestamp = false ∧ claim.status.active = true ∧
    device.status.state = .claimed ∧ device.status.claimRef = some ref

/-- The agent checks less: something was recorded for the partition before this pass, or the pass has
carved. -/
def relaxed (es : List Told) : Bool := es.any (fun e => carves e.1) || (held es).head?.any recoveringExistingAllocation

/-- The binding lasts: a partition that has an external ID or a volume already is authorized when the
pass is given it, and where the agent checks less, the claims it reads are active and the devices claimed. -/
def lasting (before : List Told) (e : Told) : Bool :=
  match e with
  | ⟨.api (.get .claim _ _), .ok claim⟩ => relaxed before → claim.status.active
  | ⟨.api (.get .device _ _), .ok device⟩ => relaxed before → device.status.state = .claimed
  | ⟨.api (.get .partition _ _), .ok p⟩ =>
    held before = [] → recoveringExistingAllocation p → PlacementAuth.isAuthorized p
  | ⟨.api (.patch .partition _ _), .ok p⟩ => recoveringExistingAllocation p → PlacementAuth.isAuthorized p
  | _ => true

/-! ### Steps -/

variable (nodeName : Str)

variable (key : Key)

section

variable {es : List Told} {partition : NVMePartition}

theorem held_append (es : List Told) (e : Told) : held (es ++ [e]) = hold (held es) e := by
  simp [held]

theorem held_grows (es : List Told) (e : Told) : held es <+: held (es ++ [e]) := by
  rw [held_append]
  unfold hold
  split
  · split
    · rename_i hnil
      rw [hnil]
      exact List.nil_prefix
    · exact List.prefix_rfl
  · exact List.prefix_append _ _
  · exact List.prefix_rfl

variable {e : Told}

theorem recent_append (h : carves e.1 = false) : recent (es ++ [e]) = recent es ++ [e] :=
  List.rtakeWhile_concat_pos _ _ _ (by simp [h])

theorem Verified.append (h : Verified es) (hc : carves e.1 = false) : Verified (es ++ [e]) := by
  obtain ⟨p, ref, claim, device, hp, hauth, href, hinfix, hrest⟩ := h
  refine ⟨p, ref, claim, device, (held_grows es e).subset hp, hauth, href, ?_, hrest⟩
  rw [recent_append hc]
  exact hinfix.trans (List.prefix_append _ _).isInfix

theorem relaxed_append (h : relaxed es = true) : relaxed (es ++ [e]) = true := by
  unfold relaxed at h ⊢
  rcases Bool.or_eq_true _ _ ▸ h with hc | hp
  · simp [hc]
  obtain ⟨l, hl⟩ := held_grows es e
  cases hh : held es with
  | nil => simp [hh] at hp
  | cons p ps =>
    rw [hh] at hp hl
    rw [Bool.or_eq_true]
    exact .inr (by simpa [← hl] using hp)

/-- The two partitions are the same to a verification. -/
structure Alike (p q : NVMePartition) : Prop where
  metadata : p.metadata = q.metadata
  spec : p.spec = q.spec
  conditions : p.status.conditions = q.status.conditions
  fingerprint : p.status.placementFingerprint = q.status.placementFingerprint

theorem Alike.refl (p : NVMePartition) : Alike p p := ⟨rfl, rfl, rfl, rfl⟩

theorem Alike.trans {p q r : NVMePartition} (h : Alike p q) (h' : Alike q r) : Alike p r :=
  ⟨h.1.trans h'.1, h.2.trans h'.2, h.3.trans h'.3, h.4.trans h'.4⟩

theorem Alike.isAuthorized {p q : NVMePartition} (h : Alike p q) :
    PlacementAuth.isAuthorized p = PlacementAuth.isAuthorized q := by
  unfold PlacementAuth.isAuthorized
  rw [h.metadata, h.spec, h.conditions, h.fingerprint]

/-- The pass works with this partition. -/
def Holding (partition : NVMePartition) (es : List Told) : Prop := ∃ p ∈ held es, Alike p partition

theorem Holding.append (h : Holding partition es) (e : Told) : Holding partition (es ++ [e]) := by
  obtain ⟨p, hp, ha⟩ := h
  exact ⟨p, (held_grows es e).subset hp, ha⟩

/-- What the next call that carves needs: a verification, or that one is done where the binding lasts. -/
def Covered (es : List Told) : Prop := relaxed es = true ∨ Verified es

theorem Covered.append (h : Covered es) (hc : carves e.1 = false) : Covered (es ++ [e]) :=
  h.imp relaxed_append fun hv => hv.append hc

theorem relaxed_of_carves (hc : carves e.1 = true) : relaxed (es ++ [e]) = true := by
  simp [relaxed, hc]

/-- The terms of a pass: it carves only after a verification in full. -/
def terms : Terms Call Call.Resp (List Told) :=
  .history (fun before e => lasting before e = true) fun c es => carves c = true → Verified es

theorem call_safe {c : Call} {Q : c.Resp → List Told → Prop} (hreq : carves c = true → Verified es)
    (hQ : ∀ r, lasting es ⟨c, r⟩ = true → Q r (es ++ [⟨c, r⟩])) : terms.Safe Q (.call c .ret) es := by
  refine .call ?_ ?_
  · rintro _ rfl -
    exact hreq
  · rintro _ r _ rfl - ⟨hl, rfl⟩
    refine ⟨trivial, trivial, Terms.Safe.ret ?_⟩
    rintro _ rfl -
    exact hQ r hl

theorem idle_safe {α : Type} {p : Proc α} {I : List Told → Prop} (hp : p.Only fun c => carves c = false) (hes : I es)
    (hI : ∀ es e, I es → carves e.1 = false → I (es ++ [e])) : terms.Safe (fun _ => I) p es := by
  refine .of_only hp hes ?_ ?_ ?_
  · rintro _ _ h rfl
    exact h
  · intro c _ hc _ _ hcarves
    rw [hc] at hcarves
    cases hcarves
  · rintro c es r _ hc - h ⟨-, rfl⟩
    exact ⟨trivial, trivial, hI es _ h hc⟩

theorem ret_safe {α : Type} {a : α} {Q : α → List Told → Prop} (h : Q a es) : terms.Safe Q (.ret a : Proc α) es := by
  refine .ret ?_
  rintro _ rfl -
  exact h

theorem idle {α : Type} {p : Proc α} (hp : p.Only fun c => carves c = false) (es : List Told) : terms.Complies p es :=
  idle_safe hp trivial fun _ _ _ _ => trivial

/-! ### Verifications -/

theorem checkPlacement_ok {ref : ClaimRef} (h : checkPlacement partition = .ok ref) :
    partition.spec.claimRef = some ref ∧
      (recoveringExistingAllocation partition = false → PlacementAuth.isAuthorized partition = true) := by
  unfold checkPlacement at h
  split at h
  · cases h
  rename_i hcond
  refine ⟨?_, fun hr => by simpa [hr] using hcond⟩
  split at h
  · cases h
  rename_i r href
  split at h
  · cases h
  split at h
  · cases h
  · cases h
    exact href

theorem claimReferencesEqual_iff {a b : Option ClaimRef} : claimReferencesEqual a b = true ↔ ∃ r, a = some r ∧ b = some r := by
  unfold claimReferencesEqual
  split
  · rename_i r r'
    obtain ⟨ns, name, uid⟩ := r
    obtain ⟨ns', name', uid'⟩ := r'
    simp only [Bool.and_eq_true, decide_eq_true_eq, Option.some.injEq]
    constructor
    · rintro ⟨⟨rfl, rfl⟩, rfl⟩
      exact ⟨_, rfl, rfl⟩
    · rintro ⟨_, rfl, h⟩
      simpa [and_assoc, eq_comm] using h
  · rename_i hnone
    refine ⟨fun h => absurd h Bool.false_ne_true, ?_⟩
    rintro ⟨r, rfl, rfl⟩
    exact absurd rfl (hnone r r rfl)

variable [StdLib]

theorem checkClaim_ok {ref : ClaimRef} {claim : NVMeDeviceClaim} (h : checkClaim partition ref claim = .ok ()) :
    claim.metadata.uid = ref.uid ∧ claim.metadata.deletionTimestamp = false ∧
      (recoveringExistingAllocation partition = false → claim.status.active = true) := by
  unfold checkClaim at h
  split at h
  · cases h
  split at h
  · cases h
  split at h
  · cases h
  split at h
  · cases h
  · rename_i huid hdel _ hact
    exact ⟨not_not.1 huid, by simpa using hdel, fun hr => by simpa [hr] using hact⟩

theorem checkDevice_ok {device : NVMeDevice} {ref : ClaimRef} (href : partition.spec.claimRef = some ref)
    (h : checkDevice partition device = .ok ()) : device.status.claimRef = some ref ∧
      (recoveringExistingAllocation partition = false → device.status.state = .claimed) := by
  unfold checkDevice at h
  split at h
  · cases h
  split at h
  · cases h
  split at h
  · cases h
  rename_i hstate heq
  refine ⟨?_, fun hr => by simpa [hr] using hstate⟩
  rw [Bool.not_eq_true, Bool.not_eq_false'] at heq
  obtain ⟨r, hr, hr'⟩ := claimReferencesEqual_iff.1 heq
  rw [href] at hr'
  cases hr'
  exact hr

/-- What the pass knows right after a verification. -/
def Cleared (partition : NVMePartition) (es : List Told) : Prop :=
  Verified es ∧ Holding partition es ∧ PlacementAuth.isAuthorized partition = true

/-- What the pass brings to a verification: where the agent does not check everything, the placement is authorized and
the binding lasts. -/
structure Brings (partition : NVMePartition) (es : List Told) : Prop where
  holding : Holding partition es
  placed : recoveringExistingAllocation partition = true → PlacementAuth.isAuthorized partition = true
  covered : recoveringExistingAllocation partition = true → Covered es

theorem verify_safe (h : Brings partition es) :
    terms.Safe (fun r es' => ∀ device, r = .ok device → Cleared partition es')
      (verifyProvisioningAuthorization partition) es := by
  unfold verifyProvisioningAuthorization
  split
  · exact ret_safe (by rintro _ ⟨⟩)
  rename_i ref hplacement
  obtain ⟨href, hplaced⟩ := checkPlacement_ok hplacement
  have hpart : PlacementAuth.isAuthorized partition = true := by
    cases hr : recoveringExistingAllocation partition with
    | false => exact hplaced hr
    | true => exact h.placed hr
  refine .check (call_safe (fun h => absurd h Bool.false_ne_true) fun r hclaim => ?_)
  rcases r with err | claim
  · exact ret_safe (by rintro _ ⟨⟩)
  simp only
  split
  · exact ret_safe (by rintro _ ⟨⟩)
  rename_i hcheck
  obtain ⟨huid, hdel, hactive⟩ := checkClaim_ok hcheck
  refine .check (call_safe (fun h => absurd h Bool.false_ne_true) fun r hdevice => ?_)
  rcases r with err | device
  · exact ret_safe (by rintro _ ⟨⟩)
  simp only
  split
  · exact ret_safe (by rintro _ ⟨⟩)
  rename_i hdcheck
  obtain ⟨hdref, hstate⟩ := checkDevice_ok href hdcheck
  refine ret_safe fun _ _ => ⟨?_, (h.holding.append _).append _, hpart⟩
  have hnew : claim.status.active = true → device.status.state = .claimed →
      Verified (es ++ [⟨.api (.get .claim .cache ref.key), .ok claim⟩] ++
        [⟨.api (.get .device .cache ⟨[], claim.status.matchedDevice⟩), .ok device⟩]) := by
    intro hact hst
    obtain ⟨p, hp, ha⟩ := (h.holding.append ⟨.api (.get .claim .cache ref.key), .ok claim⟩).append
      ⟨.api (.get .device .cache ⟨[], claim.status.matchedDevice⟩), .ok device⟩
    refine ⟨p, ref, claim, device, hp, ha.isAuthorized.trans hpart, ha.spec ▸ href, ?_, huid, hdel, hact, hst, hdref⟩
    rw [recent_append rfl, recent_append rfl, List.append_assoc]
    exact (List.suffix_append _ _).isInfix
  cases hr : recoveringExistingAllocation partition with
  | false => exact hnew (hactive hr) (hstate hr)
  | true =>
    rcases h.covered hr with hrel | hv
    · exact hnew (by simpa [lasting, hrel] using hclaim) (by simpa [lasting, relaxed_append hrel] using hdevice)
    · exact (hv.append rfl).append rfl

/-! ### The pass -/

section

omit [StdLib]

theorem idle_of_looksUp {c : Call} (hc : looksUp c = true) : carves c = false := by
  unfold looksUp at hc
  split at hc <;> trivial

theorem idle_of_followsAttachment {c : Call} (hc : followsAttachment c = true) : carves c = false := by
  unfold followsAttachment at hc
  split at hc <;> trivial

theorem failed_safe (partition : NVMePartition) (reason : Str) (err : Err) (terminal : Bool) (es : List Told) :
    terms.Complies (recordProvisioningFailure partition reason err terminal) es :=
  idle (recordProvisioningFailure_only (fun _ => idle_of_looksUp) (fun _ _ _ => rfl) partition reason err terminal) es

end

theorem whileAuthorized_safe {k : NVMeDevice → Proc (Except Err Result)} (h : Brings partition es)
    (hk : ∀ device es', Cleared partition es' → terms.Complies (k device) es') :
    terms.Complies (whileAuthorized partition k) es := by
  refine .check ((verify_safe h).conseq fun r es' _ h => ?_)
  cases r with
  | error err =>
    exact idle (rejectUnauthorizedProvisioning_only (fun _ => idle_of_looksUp) (fun _ _ _ => rfl) partition err) es'
  | ok device => exact hk device es' (h device rfl)

/-- What the pass knows after it has carved something. -/
def Carved (partition : NVMePartition) (es : List Told) : Prop := Holding partition es ∧ relaxed es = true

section

omit [StdLib]

theorem carve_safe {c : PluginCall} (hc : carves (.plugin c) = true) (h : Cleared partition es) :
    terms.Safe (fun _ => Carved partition) (plugin c) es :=
  call_safe (fun _ => h.1) fun _ _ => ⟨h.2.1.append _, relaxed_of_carves hc⟩

theorem Carved.append (h : Carved partition es) : Carved partition (es ++ [e]) :=
  ⟨h.1.append e, relaxed_append h.2⟩

theorem Cleared.append (h : Cleared partition es) (hc : carves e.1 = false) : Cleared partition (es ++ [e]) :=
  ⟨h.1.append hc, h.2.1.append e, h.2.2⟩

end

variable {resolved : ResolvedPartitionPlugins}

theorem exportPartition_safe {name : Str}
    (externalID backendVolumeID : Str) (hb : resolved.targetBackend = .atomic name) (h : Carved partition es)
    (hauth : PlacementAuth.isAuthorized partition = true) :
    terms.Complies (exportPartition nodeName key partition resolved externalID backendVolumeID) es := by
  refine .andThen (idle_safe (rdmaEndpoint_only (fun _ => idle_of_looksUp) nodeName) h fun _ _ hI _ => hI.append)
    (fun _ es1 _ => failed_safe _ _ _ _ es1) fun portalIP es1 h1 => ?_
  refine whileAuthorized_safe ⟨h1.1, fun _ => hauth, fun _ => .inl h1.2⟩ fun _ es2 h2 => ?_
  rw [hb]
  refine .andThen (carve_safe rfl h2) (fun _ es3 _ => failed_safe _ _ _ _ es3) fun nqn es3 h3 => ?_
  exact idle ((updatePartitionStatus_only (fun _ => idle_of_looksUp) (fun _ => rfl) _).next fun _ => only_done _) es3

omit [StdLib] in
theorem persistBackendVolumeIdentity_safe (created : VolumeIdentity) (h : Carved partition es) :
    terms.Safe (fun r es' => ∀ partition', r = .ok partition' → Carved partition' es' ∧ Alike partition partition')
      (persistBackendVolumeIdentity key partition created) es := by
  unfold persistBackendVolumeIdentity
  split
  · refine ret_safe fun partition' hr => ?_
    cases hr
    exact ⟨h, .refl _⟩
  · refine .andThen (idle_safe (updatePartitionStatus_only (fun _ => idle_of_looksUp) (fun _ => rfl) _) h
      fun _ _ hI _ => hI.append) (fun _ _ _ => ret_safe (by rintro _ ⟨⟩)) fun _ es1 h1 => ?_
    refine ret_safe fun partition' hr => ?_
    cases hr
    have halike : Alike partition { partition with status := withVolumeIdentity created partition.status } :=
      ⟨rfl, rfl, rfl, rfl⟩
    obtain ⟨⟨p, hp, ha⟩, hrel⟩ := h1
    exact ⟨⟨⟨p, hp, ha.trans halike⟩, hrel⟩, halike⟩

variable {name vmName : Str}

theorem carveVolume_safe
    (externalID devicePath deviceName : Str) (requestedAllocation : ℤ) (hb : resolved.targetBackend = .atomic name)
    (hv : resolved.volumeManager = .atomic vmName) (h : Cleared partition es) : terms.Complies
      (carveVolume nodeName key partition resolved externalID devicePath deviceName requestedAllocation) es := by
  unfold carveVolume
  rw [hv]
  refine .andThen (carve_safe rfl h) (fun _ es1 _ => failed_safe _ _ _ _ es1) fun _ es1 h1 => ?_
  refine whileAuthorized_safe ⟨h1.1, fun _ => h.2.2, fun _ => .inl h1.2⟩ fun _ es2 h2 => ?_
  refine .andThen (carve_safe rfl h2) (fun _ es3 _ => failed_safe _ _ _ _ es3) fun created es3 h3 => ?_
  split
  · exact failed_safe _ _ _ _ es3
  split
  · exact failed_safe _ _ _ _ es3
  refine .next (persistBackendVolumeIdentity_safe key created h3) fun partition' es4 h4 => ?_
  obtain ⟨hcarved, halike⟩ := h4 partition' rfl
  exact exportPartition_safe nodeName key externalID _ hb hcarved (halike.isAuthorized ▸ h.2.2)

theorem provisionPartition_safe
    (externalID : Str) (requestedAllocation : ℤ) (hb : resolved.targetBackend = .atomic name)
    (hv : resolved.volumeManager = .atomic vmName) (h : Brings partition es) : terms.Complies
      (provisionPartition nodeName key partition resolved externalID requestedAllocation) es := by
  refine whileAuthorized_safe h fun device es1 h1 => ?_
  refine .andThen (idle_safe (rdmaEndpoint_only (fun _ => idle_of_looksUp) nodeName) h1 fun _ _ hI hc => hI.append hc)
    (fun _ es2 _ => failed_safe _ _ _ _ es2) fun portalIP es2 h2 => ?_
  split
  · exact failed_safe _ _ _ _ es2
  rw [hb]
  refine .andThen (carve_safe rfl h2) (fun _ es3 _ => failed_safe _ _ _ _ es3) fun _ es3 h3 => ?_
  refine .andThen (idle_safe (findProvisioningDevice_only (fun _ => idle_of_looksUp) partition _) h3 fun _ _ hI _ => hI.append)
    (fun _ es4 _ => failed_safe _ _ _ _ es4) fun path es4 h4 => ?_
  refine whileAuthorized_safe ⟨h4.1, fun _ => h2.2.2, fun _ => .inl h4.2⟩ fun _ es5 h5 => ?_
  exact .andThen (idle_safe (claimBackend_only (fun _ => idle_of_looksUp) (fun _ _ => rfl) device _) h5
    fun _ _ hI hc => hI.append hc) (fun _ es6 _ => failed_safe _ _ _ _ es6) fun _ _ h6 => carveVolume_safe nodeName key externalID _ _ _ hb hv h6

omit [StdLib] in
theorem addPartitionFinalizer_safe (hh : Holding partition es)
    (hauth : recoveringExistingAllocation partition = true → PlacementAuth.isAuthorized partition = true) (hcov : Covered es) :
    terms.Safe (fun r es' => ∀ partition', r = .ok partition' → Holding partition' es' ∧ Covered es' ∧
      (recoveringExistingAllocation partition' = true → PlacementAuth.isAuthorized partition' = true))
      (addPartitionFinalizer partition) es := by
  unfold addPartitionFinalizer
  split
  · refine ret_safe fun partition' hr => ?_
    cases hr
    exact ⟨hh, hcov, hauth⟩
  · refine call_safe (fun h => absurd h Bool.false_ne_true) fun r hlast partition' hr => ?_
    subst hr
    refine ⟨⟨partition', ?_, .refl _⟩, hcov.append rfl, of_decide_eq_true hlast⟩
    rw [held_append]
    simp [hold]

omit [StdLib] in
theorem ensurePartitionIdentityAndFinalizer_safe (externalID volumeID : Str) (h : Cleared partition es) :
    terms.Safe (fun r es' => ∀ partition', r = .ok partition' → Holding partition' es' ∧ Covered es' ∧
      (recoveringExistingAllocation partition' = true → PlacementAuth.isAuthorized partition' = true))
      (ensurePartitionIdentityAndFinalizer key partition externalID volumeID) es := by
  unfold ensurePartitionIdentityAndFinalizer
  split
  · refine .andThen (idle_safe (updatePartitionStatus_only (fun _ => idle_of_looksUp) (fun _ => rfl) _) h
      fun _ _ hI hc => hI.append hc) (fun _ _ _ => ret_safe (by rintro _ ⟨⟩)) fun _ es1 h1 => ?_
    have halike : Alike partition { partition with status := { partition.status with externalID, volumeID } } :=
      ⟨rfl, rfl, rfl, rfl⟩
    obtain ⟨hv, ⟨p, hp, ha⟩, hpart⟩ := h1
    exact addPartitionFinalizer_safe ⟨p, hp, ha.trans halike⟩ (fun _ => halike.isAuthorized ▸ hpart) (.inr hv)
  · exact addPartitionFinalizer_safe h.2.1 (fun _ => h.2.2) (.inr h.1)

theorem reconcileLive_safe (req : Key) (externalID volumeID : Str) (hb : resolved.targetBackend = .atomic name)
    (hv : resolved.volumeManager = .atomic vmName) (h : Brings partition es) :
    terms.Complies (reconcileLive nodeName req partition resolved externalID volumeID) es := by
  unfold reconcileLive
  split
  · exact failed_safe _ _ _ _ es
  split
  · exact failed_safe _ _ _ _ es
  refine whileAuthorized_safe h fun _ es1 h1 => ?_
  refine .next (idle_safe (updatePartitionStatus_only (fun _ => idle_of_looksUp) (fun _ => rfl) _) h1
    fun _ _ hI hc => hI.append hc) fun _ es2 h2 => ?_
  refine .next (ensurePartitionIdentityAndFinalizer_safe req externalID volumeID h2) fun partition' es3 h3 => ?_
  obtain ⟨hh3, hcov3, hauth3⟩ := h3 partition' rfl
  have hexported : (reconcileExportedPartition nodeName partition' resolved.targetBackend).Only
      fun c => carves c = false := by
    rw [hb]
    have haccess : ∀ nqn hostNQN, ((TargetBackend.atomic name).reconcileHostAccess nqn hostNQN).Only
        fun c => carves c = false := fun _ _ => only_op rfl
    refine reconcileExportedPartition_only (fun _ => idle_of_looksUp) (fun _ => idle_of_followsAttachment)
      haccess ?_ nodeName partition'
    rintro f ⟨⟩ nqn blockPath portalIP portalPort options
    exact only_op rfl
  refine .next (idle_safe (I := fun es => Holding partition' es ∧ Covered es) hexported ⟨hh3, hcov3⟩
    fun _ e hI hc => ⟨hI.1.append e, hI.2.append hc⟩) fun handled es4 h4 => ?_
  cases handled with
  | some result => exact ret_safe trivial
  | none => exact provisionPartition_safe nodeName req externalID _ hb hv ⟨h4.1, hauth3, fun _ => h4.2⟩

theorem reconcilePartitionDeletion_idle
    (partition : NVMePartition) (externalID : Str) (hb : resolved.targetBackend = .atomic name)
    (hv : resolved.volumeManager = .atomic vmName) :
    (reconcilePartitionDeletion nodeName key partition resolved externalID).Only fun c => carves c = false := by
  refine reconcilePartitionDeletion_only (fun _ => idle_of_looksUp) (fun _ _ => rfl) ?_
    (fun _ => idle_of_followsAttachment) (fun _ => rfl) (fun _ _ => rfl) nodeName key partition externalID ?_
  · rw [hv]
    exact fun _ _ _ _ => only_op rfl
  · rw [hb]
    exact only_op rfl

theorem reconcile_safe (req : Key) : terms.Complies (reconcile .atomic nodeName req) [] := by
  refine .check (call_safe (fun h => absurd h Bool.false_ne_true) fun r hlast => ?_)
  rcases r with err | partition
  · simp only
    split <;> exact ret_safe trivial
  simp only
  split
  · exact ret_safe trivial
  split
  · exact ret_safe trivial
  split
  · split
    · exact failed_safe _ _ _ _ _
    · exact ret_safe trivial
  rename_i resolved hres
  obtain ⟨name, vmName, hb, hv⟩ := atomic_of_resolve hres
  split
  · exact idle (reconcilePartitionDeletion_idle nodeName req partition _ hb hv) _
  refine reconcileLive_safe nodeName req _ _ hb hv ⟨⟨partition, by simp [held, hold], .refl _⟩,
    of_decide_eq_true hlast rfl, fun hr => .inl ?_⟩
  simp [relaxed, held, hold, hr]

/-- Passes one after the other, each for some partition, and each possibly cut off by a crash. -/
def Run (nodeName : Str) (run : List (Key × List Told)) : Prop :=
  ∀ pass ∈ run, Trace (reconcile .atomic nodeName pass.1) pass.2

/-- **New storage is carved under a live authorization**, in every run in which the binding lasts where the
agent no longer checks it. -/
theorem carved_under_authorization {nodeName : Str} {run : List (Key × List Told)} (hrun : Run nodeName run)
    (hlast : ∀ pass ∈ run, Meets (fun before e => lasting before e = true) [] pass.2) {pass : Key × List Told}
    (hpass : pass ∈ run) {before after : List Told} {c : Call} {r : c.Resp}
    (heq : pass.2 = before ++ ⟨c, r⟩ :: after) (hc : carves c = true) : Verified before := by
  have hreq := (reconcile_safe nodeName pass.1).before (hrun pass hpass) (hlast pass hpass) heq
  exact hreq hc

end

/-! ### Runs -/

section

attribute [local instance] asciiLib

open Manager (volumeKey samplePlaced)

/-- Everything goes well, except that the claim is inactive from the `n`-th call on. -/
def replies (n i : ℕ) : (c : Call) → Option c.Resp
  | .api (.get .partition _ _) => some (.ok (samplePlaced "u1"))
  | .api (.get .claim _ _) =>
    some (.ok { Manager.sampleClaim with status := { Manager.sampleClaim.status with active := i < n } })
  | .api (.patch .partition _ obj) => some (.ok obj)
  | .api (.patchStatus .partition _ obj) => some (.ok obj)
  | c => Manager.sampleReplies c

/-- A pass for the partition. -/
def pass (n : ℕ) : List Told := (reconcile .atomic "n1" volumeKey).follow (replies n) 31 0

theorem run_pass (n : ℕ) : Run "n1" [(volumeKey, pass n)] := by
  intro p hp
  cases List.mem_singleton.1 hp
  exact trace_follow _ _ _ _

/-- A pass has a call that carves at the place. -/
def carvesAt (n i : ℕ) : Bool := (pass n)[i]?.any fun e => carves e.1

theorem exists_carve {n i : ℕ} (h : carvesAt n i = true) :
    ∃ (c : Call) (r : c.Resp), carves c = true ∧ pass n = (pass n).take i ++ ⟨c, r⟩ :: (pass n).drop (i + 1) := by
  cases hi : (pass n)[i]? with
  | none => simp [carvesAt, hi] at h
  | some e =>
    obtain ⟨hlt, hget⟩ := List.getElem?_eq_some_iff.1 hi
    refine ⟨e.1, e.2, by simpa [carvesAt, hi] using h, ?_⟩
    nth_rewrite 1 [← List.take_append_drop i (pass n)]
    rw [← List.getElem_cons_drop hlt, hget]

/-- The volume of a partition is exported, with the claim active all along. -/
theorem carved_under_authorization_exported : ∃ run : List (Key × List Told), Run "n1" run ∧
    (∀ pass ∈ run, Meets (fun before e => lasting before e = true) [] pass.2) ∧
    ∃ pass ∈ run, ∃ (before after : List Told) (c : Call) (r : c.Resp),
      pass.2 = before ++ ⟨c, r⟩ :: after ∧ carves c = true ∧ Verified before := by
  have hlast : ∀ p ∈ [(volumeKey, pass 31)], Meets (fun before e => lasting before e = true) [] p.2 := by
    intro p hp
    cases List.mem_singleton.1 hp
    decide +kernel
  obtain ⟨c, r, hc, heq⟩ := exists_carve (n := 31) (i := 28) (by decide +kernel)
  refine ⟨_, run_pass 31, hlast, _, List.mem_singleton_self _, _, _, c, r, heq, hc, ?_⟩
  exact carved_under_authorization (run_pass 31) hlast (List.mem_singleton_self _) heq hc

/-- A claim that was read is inactive. -/
def inactive (e : Told) : Bool :=
  match e with
  | ⟨.api (.get .claim _ _), .ok claim⟩ => !claim.status.active
  | _ => true

theorem not_verified {es : List Told} (h : (recent es).all inactive = true) : ¬ Verified es := by
  rintro ⟨p, ref, claim, device, -, -, -, hinfix, -, -, hact, -, -⟩
  have hmem := hinfix.subset (List.mem_cons_self ..)
  have hin := List.all_eq_true.1 h _ hmem
  simp [inactive, hact] at hin

/-- **Storage is set up on a device whose claim is no longer active.**  The partition is new: no volume and
no external ID.  The pass verifies it, records an external ID and sets the device up; then the claim becomes
inactive, and the next verification passes because of that external ID. -/
theorem carved_under_inactive_claim : ∃ run : List (Key × List Told), Run "n1" run ∧
    ∃ pass ∈ run, ∃ (before after : List Told) (c : Call) (r : c.Resp),
      pass.2 = before ++ ⟨c, r⟩ :: after ∧ carves c = true ∧
      (∃ p, (held before).head? = some p ∧ recoveringExistingAllocation p = false) ∧ ¬ Verified before := by
  obtain ⟨c, r, hc, heq⟩ := exists_carve (n := 14) (i := 18) (by decide +kernel)
  refine ⟨_, run_pass 14, _, List.mem_singleton_self _, _, _, c, r, heq, hc, ⟨samplePlaced "u1", ?_, ?_⟩, ?_⟩
  · decide +kernel
  · decide +kernel
  · exact not_verified (by decide +kernel)

end

end Distort.Agent.Verification
