import Distort.Lifecycle.Requests

/-!
One pass of the agent, whatever the plugins are made of.

`Rules` says what a pass needs to know of its plugins; from there the proof follows the functions of
the source.  A pass for a live partition counts on the finalizer being on the stored object; a pass
for a deletion counts on never being shown anything but marked versions again.
-/

namespace Distort.Lifecycle

open Go Lib Lib.Kube Api Agent Proc

variable [StdLib] {s : Setting} {w : World} {key : Key}

/-! ### The plugins -/

/-- What everything but the finalizer and the volumes leaves alone. -/
def Stable (key : Key) (I : World → Prop) : Prop := ∀ w₁ w₂, I w₁ → Steady key w₁ w₂ → I w₂

variable {I : World → Prop}

omit [StdLib] in
theorem Stable.rely (h : Stable key I) : ∀ w1 w2, I w1 → Rely key w1 w2 → I w2 :=
  fun w1 w2 h1 hr => h w1 w2 h1 hr.toSteady

/-- Only marked versions can be shown. -/
def Marked (key : Key) (w : World) : Prop :=
  ∀ q, some q ∈ (w.partitions key).versions → q.metadata.deletionTimestamp = true

/-- The name is that of the drive of the partition, if it is the name of a drive. -/
def Points (s : Setting) (key : Key) (deviceName : Str) : Prop :=
  s.spdk = true → ∀ d ∈ s.hardware, d.bdev = deviceName → s.isParent key d = true

/-- What is recorded about a volume is recorded with its ID, and the ID stands for it. -/
structure Recorded (s : Setting) (key : Key) (identity : VolumeIdentity) (w : World) : Prop where
  named : key.ns ≠ [] ∧ key.name ≠ []
  blank : identity.backendVolumeID = [] → identity.volumeUUID = [] ∧ identity.volumeStoreName = []
  stands : s.spdk = true → identity.backendVolumeID ≠ [] → Stands s key w identity.backendVolumeID

/-- The volume is exported under the name of the partition. -/
def ExportedAs (s : Setting) (key : Key) (I : World → Prop) (r : Except Err Str) (w : World) : Prop :=
  I w ∧ ∀ nqn, r = .ok nqn → nqn = Distort.VolumeIdentity.nqn (s.externalID key)

/-- What was carved stands for the partition. -/
def Carved (s : Setting) (key : Key) (I : World → Prop) (r : Except Err VolumeIdentity) (w : World) : Prop :=
  I w ∧ ∀ created, r = .ok created → s.spdk = true → Stands s key w created.backendVolumeID

/-- What was deleted is gone. -/
def Deleted (s : Setting) (key : Key) (I : World → Prop) (r : Except Err Unit) (w : World) : Prop :=
  I w ∧ (r = .ok () → s.spdk = true → Gone s key w)

/-- What a pass needs to know of the plugins. -/
structure Rules (s : Setting) : Prop where
  setupDevice : ∀ b ∈ s.plugins.backends, ∀ pciAddress deviceName options,
    (b.setupDevice pciAddress deviceName options).Only (neutral ·)
  reconcileHostAccess : ∀ b ∈ s.plugins.backends, ∀ nqn hostNQN,
    (b.reconcileHostAccess nqn hostNQN).Only (neutral ·)
  checkExport : ∀ b ∈ s.plugins.backends, ∀ f, b.checkExport = some f →
    ∀ nqn blockPath portalIP portalPort options,
      (f nqn blockPath portalIP portalPort options).Only (neutral ·)
  setupStorage : ∀ vm ∈ s.plugins.volumeManagers, ∀ devicePath deviceName,
    (vm.setupStorage devicePath deviceName).Only (neutral ·)
  exportVolume : ∀ b ∈ s.plugins.backends, ∀ {key : Key} {I : World → Prop} {w : World} blockPath portalIP portalPort
    options, Stable key I → (∀ w₁, I w₁ → Fenced key w₁) → I w →
      (outline s).Safe key (ExportedAs s key I)
        (b.exportVolume (s.externalID key) blockPath portalIP portalPort options) w
  unexportVolume : ∀ b ∈ s.plugins.backends, ∀ {key : Key} {I : World → Prop} {w : World}, Stable key I → I w →
    (outline s).Safe key (fun _ => I)
      (b.unexportVolume (Distort.VolumeIdentity.nqn (s.externalID key))) w
  createVolume : ∀ vm ∈ s.plugins.volumeManagers, ∀ {key : Key} {I : World → Prop} {w : World} devicePath deviceName
    sizeBytes, Stable key I → (∀ w₁, I w₁ → Fenced key w₁) → Points s key deviceName → I w →
      (outline s).Safe key (Carved s key I)
        (vm.createVolume devicePath deviceName (s.externalID key) sizeBytes) w
  deleteVolume : ∀ vm ∈ s.plugins.volumeManagers, ∀ {key : Key} {I : World → Prop} {w : World} devicePath deviceName
    identity, Stable key I → (∀ w₁, I w₁ → Marked key w₁ ∧ Recorded s key identity w₁) → I w →
      (outline s).Safe key (Deleted s key I)
        (vm.deleteVolume devicePath deviceName (s.externalID key) identity) w

/-! ### Updates of the status -/

theorem updatePartitionStatus_safe {f : NVMePartitionStatus → NVMePartitionStatus}
    (hI : ∀ w1 w2, I w1 → Rely key w1 w2 → I w2) (hf : ∀ w1, I w1 → Writes s key w1 f) (hw : I w) :
    (outline s).Safe key (fun _ => I) (updatePartitionStatus key f) w := by
  refine .andThen (getPartition_safe hw hI) (fun _ _ h1 => .keep h1.1 hI) fun latest w1 ⟨h1, hread⟩ => ?_
  obtain ⟨hsound, hseen, -⟩ := hread latest rfl
  refine .andThen (Outline.call (Q := fun _ => I) (fun _ _ _ => trivial) (fun _ => hI) fun ch w2 r w3 hr hi _ ha => ?_)
    (fun _ _ h2 => .keep h2 hI) fun _ _ h2 => .keep h2 hI
  obtain ⟨hi', hr'⟩ := patchStatus_served hi (hsound.mono hr.stores) (hr.seen latest hseen) (hf w2 (hI w1 w2 h1 hr))
  rcases Fate.answerWith_state ha with rfl | rfl
  · exact ⟨hi, trivial, hI w1 _ h1 hr⟩
  · exact ⟨hi', trivial, hI w2 _ (hI w1 w2 h1 hr) (hr' key)⟩

theorem writes_of_same {f : NVMePartitionStatus → NVMePartitionStatus}
    (h : ∀ st, (f st).externalID = st.externalID ∧ (f st).nqn = st.nqn ∧ (f st).backendVolumeID = st.backendVolumeID ∧
      (f st).spdkLvolUUID = st.spdkLvolUUID ∧ (f st).spdkLvstoreName = st.spdkLvstoreName) (w : World) :
    Writes s key w f :=
  ⟨fun st => .inl (h st).1, fun st => .inl (h st).2.1, .inl fun st => (h st).2.2⟩

variable {partition : NVMePartition}

theorem setClaimAuthorizationCondition_safe (hp : partition.key = key)
    (hI : ∀ w1 w2, I w1 → Rely key w1 w2 → I w2) (hw : I w) (status : ConditionStatus) (reason message : Str) :
    (outline s).Safe key (fun _ => I) (setClaimAuthorizationCondition partition status reason message) w := by
  unfold setClaimAuthorizationCondition
  rw [hp]
  exact updatePartitionStatus_safe hI (fun w1 _ => writes_of_same (fun _ => by exact ⟨rfl, rfl, rfl, rfl, rfl⟩) w1) hw

theorem rejectUnauthorizedProvisioning_safe (hp : partition.key = key) (err : Err)
    (w : World) : (outline s).Complies key (rejectUnauthorizedProvisioning partition err) w :=
  .next (setClaimAuthorizationCondition_safe hp (fun _ _ _ _ => trivial) trivial _ _ _) fun _ _ _ => .ended

theorem recordProvisioningFailure_safe (hp : partition.key = key) (reason : Str) (err : Err)
    (terminal : Bool) (w : World) :
    (outline s).Complies key (recordProvisioningFailure partition reason err terminal) w := by
  unfold recordProvisioningFailure
  rw [hp]
  refine .next (updatePartitionStatus_safe (I := fun _ => True) (fun _ _ _ _ => trivial)
    (fun w1 _ => writes_of_same (fun _ => by exact ⟨rfl, rfl, rfl, rfl, rfl⟩) w1) trivial) fun _ w1 _ => ?_
  split <;> exact .ended

/-! ### What asks for nothing special -/

omit [StdLib] in
theorem neutral_of_looksUp {c : Call} (hc : looksUp c = true) : neutral c = true := by
  unfold looksUp at hc
  split at hc <;> trivial

omit [StdLib] in
theorem neutral_of_followsAttachment {c : Call} (hc : followsAttachment c = true) : neutral c = true := by
  unfold followsAttachment at hc
  split at hc <;> trivial

theorem reconcileExportedPartition_neutral (rules : Rules s) {backend : TargetBackend} (hb : backend ∈ s.plugins.backends)
    (nodeName : Str) (partition : NVMePartition) :
    (reconcileExportedPartition nodeName partition backend).Only (neutral ·) :=
  reconcileExportedPartition_only (fun _ => neutral_of_looksUp) (fun _ => neutral_of_followsAttachment)
    (rules.reconcileHostAccess backend hb) (rules.checkExport backend hb) nodeName partition

/-! ### Deletion -/

/-- What a pass for a deletion counts on: it was shown a marked version. -/
structure Ending (s : Setting) (key : Key) (p : NVMePartition) (w : World) : Prop where
  sound : Sound s key w p
  seen : Seen key p w

theorem Ending.stable (p : NVMePartition) : Stable key (Ending s key p) :=
  fun _ _ h hs => ⟨h.sound.mono hs.stores, hs.seen p h.seen⟩

theorem Ending.gone_stable (p : NVMePartition) (w1 w2 : World)
    (h : Ending s key p w1 ∧ (s.spdk = true → Gone s key w1)) (hr : Rely key w1 w2) :
    Ending s key p w2 ∧ (s.spdk = true → Gone s key w2) :=
  ⟨Ending.stable p w1 w2 h.1 hr.toSteady, fun hs => (h.2 hs).mono hr.lvols⟩

variable {p : NVMePartition}

theorem Ending.marked (h : Ending s key p w) (hd : p.metadata.deletionTimestamp = true) :
    Marked key w := fun q hq => (h.seen.2 q hq).deleting hd

theorem Ending.recorded (h : Ending s key p w) : Recorded s key (backendVolumeIdentity p.status) w :=
  ⟨h.sound.named, h.sound.blank, h.sound.stands⟩

theorem removePartitionFinalizer_safe (hp : Ending s key p w)
    (hd : p.metadata.deletionTimestamp = true) (hgone : s.spdk = true → Gone s key w) :
    (outline s).Complies key (removePartitionFinalizer key) w := by
  refine .andThen (getPartition_safe ⟨hp, hgone⟩ (Ending.gone_stable p)) (fun _ _ _ => ?_) fun latest w1 ⟨h1, hread⟩ => ?_
  · split <;> exact .ended
  have hkey : latest.key = key := (hread latest rfl).1.key_eq
  refine .next (Outline.call (Q := fun _ _ => True) (fun _ _ _ => trivial) (fun _ _ _ _ _ => trivial)
    fun ch w2 r w3 hr hi _ ha => ⟨?_, trivial, trivial⟩) fun _ _ _ => .ended
  obtain ⟨hend, hg⟩ := Ending.gone_stable p w1 w2 h1 hr
  rcases Fate.answerWith_state ha with rfl | rfl
  · exact hi
  · exact removeFinalizer_served hi hkey (hend.marked hd) hg

variable {resolved : ResolvedPartitionPlugins} (rules : Rules s) (hb : resolved.targetBackend ∈ s.plugins.backends)
  (hvm : resolved.volumeManager ∈ s.plugins.volumeManagers)

include rules hvm in
theorem deleteBackendVolume_safe (hp : Ending s key p w)
    (hd : p.metadata.deletionTimestamp = true) (hplaced : p.spec.nodeName = s.nodeName) :
    (outline s).Safe key (Deleted s key (Ending s key p))
      (deleteBackendVolume s.nodeName p resolved (s.externalID key)) w := by
  unfold deleteBackendVolume
  split
  · refine .andThen (neutral_safe (resolveDeletionDevice_only (fun _ => neutral_of_looksUp) _ _ _) hp (Ending.stable p).rely)
      (fun _ w1 h1 => .ret fun w2 hr _ => ⟨Ending.stable p w1 w2 h1 hr.toSteady, by rintro ⟨⟩⟩) fun device w1 h1 => ?_
    refine .andThen (rules.deleteVolume _ hvm _ _ _ (Ending.stable p) (fun w2 h2 => ⟨h2.marked hd, h2.recorded⟩) h1)
      (fun _ w2 h2 => .ret fun w3 hr _ => ⟨Ending.stable p w2 w3 h2.1 hr.toSteady, by rintro ⟨⟩⟩) fun _ w2 h2 => ?_
    exact (neutral_safe (clearInactiveBackend_only (fun _ => neutral_of_looksUp) (fun _ _ => rfl) _ _ _)
      ⟨h2.1, h2.2 rfl⟩ (Ending.gone_stable p)).conseq fun r w3 _ h => ⟨h.1, fun _ => h.2⟩
  · -- a partition of this node has a drive
    rename_i hserial
    refine .ret fun w1 hr _ => ⟨Ending.stable p w w1 hp hr.toSteady, fun _ hs => ?_⟩
    exfalso
    have hfits := hp.sound.fits
    have hnode := s.nodeName_ne
    have hparent := s.parent_ne key
    rw [not_not] at hserial
    rw [← hplaced] at hnode
    simp [Setting.fits, hs, hserial, hnode, Ne.symm hparent] at hfits

include rules hb hvm in
/-- **The deletion of a partition.** -/
theorem reconcilePartitionDeletion_safe (hp : Ending s key p w) (hd : p.metadata.deletionTimestamp = true)
    (hplaced : p.spec.nodeName = s.nodeName) :
    (outline s).Complies key (reconcilePartitionDeletion s.nodeName key p resolved (s.externalID key)) w := by
  have hnqn : (if p.status.nqn = [] then Distort.VolumeIdentity.nqn (s.externalID key) else p.status.nqn) =
      Distort.VolumeIdentity.nqn (s.externalID key) := by
    split
    · rfl
    · rename_i hne
      exact hp.sound.nqn.resolve_left hne
  unfold reconcilePartitionDeletion
  split
  · exact .ended
  simp only [hnqn]
  refine .next (rules.unexportVolume _ hb (Ending.stable p) hp) fun _ w1 h1 => ?_
  refine .next (neutral_safe (releaseAttachmentAfterUnexport_only (fun _ => neutral_of_followsAttachment) (fun _ => rfl) p)
    h1 (Ending.stable p).rely) fun _ w2 h2 => ?_
  exact .next (deleteBackendVolume_safe rules hvm h2 hd hplaced) fun _ _ h3 =>
    removePartitionFinalizer_safe h3.1 hd (h3.2 rfl)

/-! ### Provisioning -/

omit [StdLib] in
theorem fenced_stable : Stable key (Fenced key) := fun _ _ h hs => hs.fenced h

omit [StdLib] in
theorem parent_ne_of_checkPlacement {claimRef : ClaimRef}
    (h : checkPlacement partition = .ok claimRef) : partition.spec.parentDeviceSerialNumber ≠ [] := by
  unfold checkPlacement at h
  split at h
  · cases h
  split at h
  · cases h
  split at h
  · cases h
  split at h
  · cases h
  · assumption

theorem whileAuthorized_safe {k : NVMeDevice → Proc (Except Err Result)}
    (hp : partition.key = key) (hI : ∀ w1 w2, I w1 → Rely key w1 w2 → I w2) (hw : I w)
    (hk : partition.spec.parentDeviceSerialNumber ≠ [] → ∀ device w1, I w1 →
      (outline s).Complies key (k device) w1) : (outline s).Complies key (whileAuthorized partition k) w := by
  rcases hc : checkPlacement partition with err | claimRef
  · have hfail : verifyProvisioningAuthorization partition = fail err := by
      simp only [verifyProvisioningAuthorization, hc]
    unfold whileAuthorized
    rw [hfail]
    exact rejectUnauthorizedProvisioning_safe hp err w
  exact .andThen (neutral_safe (verifyProvisioningAuthorization_only (fun _ => neutral_of_looksUp) partition) hw hI)
    (fun err w1 _ => rejectUnauthorizedProvisioning_safe hp err w1)
      fun device w1 h1 => hk (parent_ne_of_checkPlacement hc) device w1 h1

/-- What is known of the partition that is provisioned: the finalizer is on the stored one. -/
structure Live (s : Setting) (key : Key) (partition : NVMePartition) : Prop where
  key_eq : partition.key = key
  fits : s.fits key partition.spec = true

include rules hb in
theorem exportPartition_safe (hp : partition.key = key) (hw : Fenced key w)
    (backendVolumeID : Str) : (outline s).Complies key
      (exportPartition s.nodeName key partition resolved (s.externalID key) backendVolumeID) w := by
  refine .andThen (neutral_safe (rdmaEndpoint_only (fun _ => neutral_of_looksUp) _) hw fenced_stable.rely)
    (fun err w1 _ => recordProvisioningFailure_safe hp _ err false w1) fun portalIP w1 h1 => ?_
  refine whileAuthorized_safe hp fenced_stable.rely h1 fun _ device w2 h2 => ?_
  refine .andThen (rules.exportVolume _ hb _ _ _ _ fenced_stable (fun _ h => h) h2)
    (fun err w3 _ => recordProvisioningFailure_safe hp _ err false w3) fun nqn w3 h3 => ?_
  obtain rfl := h3.2 nqn rfl
  refine .next (updatePartitionStatus_safe (I := fun _ => True) (fun _ _ _ _ => trivial) (fun w4 _ => ?_) trivial)
    fun _ _ _ => .ended
  exact ⟨fun _ => .inl rfl, fun _ => .inr rfl, .inl fun _ => ⟨rfl, rfl, rfl⟩⟩

theorem persistBackendVolumeIdentity_safe {created : VolumeIdentity}
    (hp : partition.key = key) (hne : created.backendVolumeID ≠ []) (hw : Fenced key w)
    (hst : s.spdk = true → Stands s key w created.backendVolumeID) :
    (outline s).Safe key (fun r w1 => Fenced key w1 ∧ ∀ q, r = .ok q → q.key = key)
      (persistBackendVolumeIdentity key partition created) w := by
  unfold persistBackendVolumeIdentity
  split
  · refine .ret fun w1 hr _ => ⟨hr.fenced hw, ?_⟩
    rintro q ⟨⟩
    exact hp
  · refine .andThen (updatePartitionStatus_safe
      (I := fun w1 => Fenced key w1 ∧ (s.spdk = true → Stands s key w1 created.backendVolumeID))
      (fun w1 w2 h hr => ⟨hr.fenced h.1, fun hs => (h.2 hs).mono hr.stores⟩) (fun w1 h => ?_) ⟨hw, hst⟩)
      (fun _ _ h1 => .ret fun w2 hr _ => ⟨hr.fenced h1.1, nofun⟩)
      fun _ _ h1 => .ret fun w2 hr _ => ⟨hr.fenced h1.1, fun q hq => Except.ok.inj hq ▸ hp⟩
    exact ⟨fun _ => .inl rfl, fun _ => .inl rfl, .inr fun _ => ⟨hne, h.2⟩⟩

include rules hb hvm in
theorem carveVolume_safe (hp : partition.key = key) {deviceName : Str} (hpoints : Points s key deviceName) (hw : Fenced key w)
    (devicePath : Str) (requestedAllocation : ℤ) :
    (outline s).Complies key (carveVolume s.nodeName key partition resolved (s.externalID key)
      devicePath deviceName requestedAllocation) w := by
  refine .andThen (neutral_safe (rules.setupStorage _ hvm _ _) hw fenced_stable.rely)
    (fun err w1 _ => recordProvisioningFailure_safe hp _ err false w1) fun _ w1 h1 => ?_
  refine whileAuthorized_safe hp fenced_stable.rely h1 fun _ device w2 h2 => ?_
  refine .andThen (rules.createVolume _ hvm _ _ _ fenced_stable (fun _ h => h) hpoints h2)
    (fun err w3 _ => recordProvisioningFailure_safe hp _ err false w3) fun created w3 h3 => ?_
  split
  · exact recordProvisioningFailure_safe hp _ _ true w3
  rename_i hne
  split
  · exact recordProvisioningFailure_safe hp _ _ true w3
  exact .next (persistBackendVolumeIdentity_safe hp hne h3.1 (h3.2 created rfl)) fun q _ h4 =>
    exportPartition_safe rules hb (h4.2 q rfl) h4.1 _

theorem findProvisioningDevice_safe (hp : Live s key partition)
    (hplaced : partition.spec.parentDeviceSerialNumber ≠ []) (hw : Fenced key w) (targetBackendName : Str) :
    (outline s).Safe key (fun r w1 => Fenced key w1 ∧ ∀ path, r = .ok path → Points s key path.2)
      (findProvisioningDevice partition targetBackendName) w := by
  have hdiscover : (outline s).Safe key (fun r w1 => Fenced key w1 ∧ s.truthful r = true) (node .discoverNVMe) w := by
    refine Outline.call (fun _ _ _ => trivial) (fun _ _ _ h hr => ⟨hr.fenced h.1, h.2⟩) fun ch w1 r w2 hr hi _ ha => ?_
    obtain ⟨r', hr', heq⟩ := Option.map_eq_some_iff.1 ha
    obtain ⟨rfl, rfl⟩ := Prod.mk.inj heq
    exact ⟨hi, trivial, hr.fenced hw, (Option.filter_eq_some_iff.1 hr').2⟩
  refine .andThen hdiscover (fun _ _ h1 => .ret fun w2 hr _ => ⟨hr.fenced h1.1, nofun⟩) fun devices w1 h1 => ?_
  split
  · rename_i device hfind
    refine .ret fun w2 hr _ => ⟨hr.fenced h1.1, ?_⟩
    rintro path ⟨⟩
    -- the serial number that was found is that of the drive of this name
    intro hs d hd hname
    have htrue := List.all_eq_true.1 (List.all_eq_true.1 h1.2 device (List.mem_of_find?_eq_some hfind)) d hd
    have hserial : device.serialNumber = d.serialNumber := by simpa [hname] using htrue
    have hfold := List.find?_some hfind
    have hparent : partition.spec.parentDeviceSerialNumber = s.parent key := by
      simpa [Setting.fits, hs, hplaced] using hp.fits
    rw [hserial, hparent] at hfold
    exact hfold
  · exact .ret fun w2 hr _ => ⟨hr.fenced h1.1, nofun⟩

include rules hb hvm in
theorem provisionPartition_safe (hp : Live s key partition) (hw : Fenced key w) (requestedAllocation : ℤ) :
    (outline s).Complies key
      (provisionPartition s.nodeName key partition resolved (s.externalID key) requestedAllocation) w := by
  have hfailure := recordProvisioningFailure_safe (s := s) hp.key_eq
  refine whileAuthorized_safe hp.key_eq fenced_stable.rely hw fun hplaced device w1 h1 => ?_
  refine .andThen (neutral_safe (rdmaEndpoint_only (fun _ => neutral_of_looksUp) _) h1 fenced_stable.rely)
    (fun err w2 _ => hfailure _ err false w2) fun portalIP w2 h2 => ?_
  split
  · exact hfailure _ _ false w2
  refine .andThen (neutral_safe (rules.setupDevice _ hb _ _ _) h2 fenced_stable.rely)
    (fun err w3 _ => hfailure _ err false w3) fun _ w3 h3 => ?_
  refine .andThen (findProvisioningDevice_safe hp hplaced h3 _) (fun _ w4 _ => hfailure _ _ false w4)
    fun path w4 h4 => ?_
  refine whileAuthorized_safe hp.key_eq fenced_stable.rely h4.1 fun _ _ w5 h5 => ?_
  exact .andThen (neutral_safe (claimBackend_only (fun _ => neutral_of_looksUp) (fun _ _ => rfl) _ _) h5 fenced_stable.rely)
    (fun err w6 _ => hfailure _ err false w6) fun _ _ h6 => carveVolume_safe rules hb hvm hp.key_eq (h4.2 path rfl) h6 _ _

/-! ### The finalizer and the identity -/

/-- What a pass was shown at its start. -/
structure Shown (s : Setting) (key : Key) (p : NVMePartition) (w : World) : Prop where
  sound : Sound s key w p
  fenced : partitionFinalizer ∈ p.metadata.finalizers → Fenced key w

theorem Shown.stable (p : NVMePartition) : Stable key (Shown s key p) :=
  fun _ _ h hs => ⟨h.sound.mono hs.stores, fun hm => hs.fenced (h.fenced hm)⟩

theorem addPartitionFinalizer_safe {p q : NVMePartition} (hp : Shown s key p w) (hm : q.metadata = p.metadata)
    (hs : q.spec = p.spec) : (outline s).Safe key
      (fun r w1 => ∀ partition, r = .ok partition → Live s key partition ∧ Fenced key w1) (addPartitionFinalizer q) w := by
  have hkey : q.key = key := by
    rw [← hp.sound.key_eq, Object.key, Object.key, hm]
  unfold addPartitionFinalizer
  split
  · rename_i hf
    refine .ret fun w1 hr _ => ?_
    rintro partition ⟨⟩
    refine ⟨⟨hkey, hs ▸ hp.sound.fits⟩, hr.fenced (hp.fenced ?_)⟩
    rw [← hm]
    exact containsFinalizer_iff.1 hf
  · rename_i hnot
    refine Outline.call (fun _ _ _ => trivial)
      (fun r w1 w2 h hr partition hrp => ⟨(h partition hrp).1, hr.fenced (h partition hrp).2⟩) ?_
    intro ch w1 r w2 hr hi _ ha
    obtain ⟨hi', -, hok⟩ := addFinalizer_served hi hkey fun hmem => hnot (containsFinalizer_iff.2 hmem)
    rcases Fate.answerWith_cases ha with ⟨rfl, rfl⟩ | ⟨err, rfl, -, hw'⟩
    · refine ⟨hi', trivial, fun partition hrp => ?_⟩
      obtain ⟨hsound, hfenced⟩ := hok partition hrp
      exact ⟨⟨hsound.key_eq, hsound.fits⟩, hfenced⟩
    · rcases hw' with rfl | rfl
      · exact ⟨hi, trivial, fun _ h => nomatch h⟩
      · exact ⟨hi', trivial, fun _ h => nomatch h⟩

/-- **Before anything is carved**, the identity is recorded and the finalizer is on the stored object. -/
theorem ensurePartitionIdentityAndFinalizer_safe (hp : Shown s key p w) (volumeID : Str) :
    (outline s).Safe key (fun r w1 => ∀ partition, r = .ok partition → Live s key partition ∧ Fenced key w1)
      (ensurePartitionIdentityAndFinalizer key p (s.externalID key) volumeID) w := by
  unfold ensurePartitionIdentityAndFinalizer
  split
  · refine .andThen (updatePartitionStatus_safe (Shown.stable p).rely (fun w1 _ => ?_) hp)
      (fun _ _ _ => .ret fun _ _ _ _ h => nomatch h) fun _ _ h1 => addPartitionFinalizer_safe h1 rfl rfl
    exact ⟨fun _ => .inr rfl, fun _ => .inl rfl, .inl fun _ => ⟨rfl, rfl, rfl⟩⟩
  · exact addPartitionFinalizer_safe hp rfl rfl

theorem exists_identity (s : Setting) (h : key.ns ≠ [] ∧ key.name ≠ []) :
    ∃ identity, Distort.VolumeIdentity.new key.ns key.name (s.uid key) = .ok identity ∧
      s.externalID key = identity.externalID ∧ s.externalID key ≠ [] := by
  obtain ⟨identity, hnew⟩ := Distort.VolumeIdentity.exists_new h.1 h.2 (s.uid_ne key)
  have hid : s.externalID key = identity.externalID := by
    simp only [Setting.externalID, hnew]
  exact ⟨identity, hnew, hid, hid ▸ Distort.VolumeIdentity.externalID_ne_nil hnew⟩

theorem identitiesForPartition_eq (h : Sound s key w p) : (identitiesForPartition p).1 = s.externalID key := by
  obtain ⟨hns, hname⟩ : p.metadata.ns = key.ns ∧ p.metadata.name = key.name := Key.mk.inj h.key_eq
  obtain ⟨identity, hnew, hid, hne⟩ := exists_identity s h.named
  unfold identitiesForPartition
  simp only [hns, hname, h.uid, hnew]
  rcases h.externalID with hempty | hset
  · rcases h.nqn with hnone | hnqn
    · simp [hempty, hnone, hid]
    · simp [hempty, hnqn, hne]
  · simp [hset, hne]

/-! ### `Reconcile` -/

include rules hb hvm in
theorem reconcileLive_safe (hp : Shown s key p w) (volumeID : Str) : (outline s).Complies key
      (reconcileLive s.nodeName key p resolved (s.externalID key) volumeID) w := by
  have hkey := hp.sound.key_eq
  unfold reconcileLive
  split
  · exact recordProvisioningFailure_safe hkey _ _ true w
  split
  · exact recordProvisioningFailure_safe hkey _ _ true w
  refine whileAuthorized_safe hkey (Shown.stable p).rely hp fun _ _ w1 h1 => ?_
  refine .next (setClaimAuthorizationCondition_safe hkey (Shown.stable p).rely h1 _ _ _) fun _ w2 h2 => ?_
  refine .next (ensurePartitionIdentityAndFinalizer_safe h2 volumeID) fun partition w3 h3 => ?_
  obtain ⟨hlive, hfenced⟩ := h3 partition rfl
  refine .next (neutral_safe (reconcileExportedPartition_neutral rules hb _ partition) hfenced fenced_stable.rely)
    fun handled w4 h4 => ?_
  cases handled with
  | some result => exact .ended
  | none => exact provisionPartition_safe rules hb hvm hlive h4 _

/-- **A pass keeps the invariant, and asks the plugins for nothing that it must not ask for.** -/
theorem reconcile_safe (rules : Rules s) (key : Key) (w : World) :
    (outline s).Complies key (reconcile s.plugins s.nodeName key) w := by
  refine .andThen (getPartition_safe (I := fun _ => True) trivial fun _ _ _ _ => trivial) (fun _ _ _ => ?_)
    fun p w1 ⟨_, hread⟩ => ?_
  · split <;> exact .ended
  obtain ⟨hsound, hseen, hfenced⟩ := hread p rfl
  split
  · exact .ended
  rename_i hnode
  rw [not_not] at hnode
  split
  · exact .ended
  split
  · split
    · exact recordProvisioningFailure_safe hsound.key_eq _ _ true w1
    · exact .ended
  · rename_i resolved hres
    obtain ⟨hb, hvm⟩ := mem_of_resolve hres
    simp only [identitiesForPartition_eq hsound]
    split
    · rename_i hd
      exact reconcilePartitionDeletion_safe rules hb hvm ⟨hsound, hseen⟩ hd hnode
    · rename_i hd
      exact reconcileLive_safe rules hb hvm ⟨hsound, hfenced (by simpa using hd)⟩ _

end Distort.Lifecycle
