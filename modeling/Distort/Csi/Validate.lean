import Distort.Csi.Requests

/-!
Validating the capabilities of a volume: `ValidateVolumeCapabilities` of `controller_server.go`, and how it agrees with
creation.

* `Shows p` — an API server on which the partition `p` lies, in whatever state, and `CreateVolume` against it
  (`createVolume_holds`);
* `Confirmed` — a request is confirmed for the partition that is stored;
* `confirmed_iff` — what that takes, for a partition that was made for the parameters of the request;
* `named_filesystem_iff` — the request that created a volume is confirmed; the filesystems that a confirmed
  request names are the persisted one unless the context stands in for the parameters.
-/

namespace Distort.Csi

open Go Lib Lib.Kube Api Proc Prog

/-! ### The code -/

structure ValidateVolumeCapabilitiesRequest where
  volumeID : Str
  volumeContext : Params
  volumeCapabilities : List (Option VolumeCapability)
  parameters : Params

/-- The parts of the request that are confirmed, or a message. -/
structure ValidateVolumeCapabilitiesResponse where
  confirmed : Option (Params × List (Option VolumeCapability) × Params)
  message : Str

def unconfirmedCapabilities (message : Str) : ValidateVolumeCapabilitiesResponse := ⟨none, message⟩

/-- `maps.Equal`. -/
def mapsEqual (m m' : Params) : Bool := m.length = m'.length && m.all fun kv => m'.lookup kv.1 = some kv.2

/-- The filesystem that a context carries. -/
def contextFilesystem (context : Params) : Str := (context.lookup filesystemParameter).getD []

/-- The parameters have one of the keys for a filesystem, whatever its value. -/
def hasFilesystemKey (parameters : Params) : Bool :=
  (parameters.lookup filesystemParameter).isSome || (parameters.lookup csiFilesystemParameter).isSome

section code

variable [StdLib]

/-- Some capability names a filesystem. -/
def hasCapabilityFilesystem (capabilities : List (Option VolumeCapability)) : Bool :=
  capabilities.any fun c => match c.bind (·.mount) with
    | some mount => trimSpace mount.fsType ≠ []
    | none => false

/-- The parameters of the request, and the filesystem of its context or of the volume if they have none. -/
def validationParameters (expectedContext : Params) (req : ValidateVolumeCapabilitiesRequest) : Params :=
  if hasFilesystemKey req.parameters then req.parameters
  else if contextFilesystem req.volumeContext ≠ [] then
    (filesystemParameter, contextFilesystem req.volumeContext) :: req.parameters
  else if hasCapabilityFilesystem req.volumeCapabilities then req.parameters
  else (filesystemParameter, contextFilesystem expectedContext) :: req.parameters

/-- The storage configuration of the parameters is the persisted one. -/
def validatePersistedStorage (partition : NVMePartition) (parameters : Params) : Except Err Unit := do
  let (targetBackend, volumeManager, targetOptions) ← storageConfiguration parameters
  let expectedBackend := if partition.spec.targetBackend = [] then spdkTargetBackend else partition.spec.targetBackend
  let expectedManager := if partition.spec.volumeManager = [] then partitionVolumeManager else partition.spec.volumeManager
  if targetBackend ≠ expectedBackend ∨ volumeManager ≠ expectedManager ∨
      mapsEqual targetOptions partition.spec.targetOptions = false then
    throw (.errorf "volume creation parameters do not match the persisted storage configuration" [])
  match parameters.lookup (str "csi.storage.k8s.io/pvc/namespace") with
  | none => pure ()
  | some ns =>
    if (if ns = [] then str "default" else ns) ≠ partition.metadata.ns then
      throw (.errorf "volume namespace parameter does not match the persisted volume" [])

def validatePersistedVolumeRequest (partition : NVMePartition) (req : ValidateVolumeCapabilitiesRequest) :
    Except Err Unit := do
  let expectedContext := volumeContextForPartition partition
  if req.volumeContext ≠ [] ∧ mapsEqual req.volumeContext expectedContext = false then
    throw (.errorf "volume context does not match the persisted volume" [])
  let capability ← validateVolumeCapabilities (validationParameters expectedContext req) req.volumeCapabilities
  let expectedAccessMode :=
    if partition.spec.accessMode = [] then supportedAccessMode.string else partition.spec.accessMode
  if capability.accessMode ≠ expectedAccessMode ∨ capability.filesystem ≠ contextFilesystem expectedContext then
    throw (.errorf "requested capability does not match the persisted access mode and filesystem" [])
  if req.parameters = [] then return ()
  validatePersistedStorage partition req.parameters

/-- `ValidateVolumeCapabilities`. -/
def ControllerServer.validateVolumeCapabilities (req : ValidateVolumeCapabilitiesRequest) :
    Proc (Except Status ValidateVolumeCapabilitiesResponse) :=
  if req.volumeID = [] then fail ⟨.invalidArgument, "Volume ID must be provided"⟩
  else
    (partitionForVolumeHandle req.volumeID).check fail fun partition =>
    match validatePersistedVolumeRequest partition req with
    | .error err => done (unconfirmedCapabilities err.text)
    | .ok _ => done ⟨some (req.volumeContext, req.volumeCapabilities, req.parameters), []⟩

end code

/-! ### Creation -/

/-- The partition is what was asked for; where it goes is left to others. -/
structure Requested (asked p : NVMePartition) : Prop where
  key : p.key = asked.key
  accessMode : p.spec.accessMode = asked.spec.accessMode
  filesystem : p.spec.filesystem = asked.spec.filesystem
  fingerprint : p.spec.requestFingerprint = asked.spec.requestFingerprint
  backend : p.spec.targetBackend = asked.spec.targetBackend
  manager : p.spec.volumeManager = asked.spec.volumeManager
  options : p.spec.targetOptions = asked.spec.targetOptions

/-- Another state of the same partition, with the volume ID that the agent records. -/
structure SameVolume (p q : NVMePartition) : Prop where
  ns : q.metadata.ns = p.metadata.ns
  name : q.metadata.name = p.metadata.name
  uid : q.metadata.uid = p.metadata.uid
  fingerprint : q.spec.requestFingerprint = p.spec.requestFingerprint
  volumeID : ∀ i, VolumeIdentity.new p.metadata.ns p.metadata.name p.metadata.uid = .ok i →
    q.status.volumeID = [] ∨ q.status.volumeID = i.volumeHandle

/-- The API server while `p` is there: to create it succeeds for what it was made for, and to read it shows some state of
it.  Requests may fail. -/
def Shows (p : NVMePartition) : Server Call Call.Resp Unit := fun c _ r _ =>
  match c, r with
  | .api (.create .partition asked), r => ∀ o, r = .ok o → Requested asked p
  | .api (.get .partition _ key), r => ∀ q, r = .ok q → key = p.key ∧ SameVolume p q
  | _, _ => True

section creation

variable [StdLib] {p : NVMePartition}

omit [StdLib] in
theorem get_holds (key : Key) :
    Meets (Shows p) (OnOk fun q _ => key = p.key ∧ SameVolume p q) (Proc.get .partition .api key) () :=
  Holds.op trivial fun _ _ hr => ⟨trivial, hr⟩

omit [StdLib] in
theorem createOrReuse_holds (n : Normalized) : Meets (Shows p) (OnOk fun _ _ => Requested n.partition p ∨
      n.key = p.key ∧ p.spec.requestFingerprint = fingerprintCreateVolumeRequest n.canonical) (createOrReuse n) () := by
  refine Holds.check (Holds.op trivial fun r _ hr => ⟨trivial, ?_⟩)
  cases r with
  | ok o => exact .ret trivial (onOk_ok (.inl (hr o rfl)))
  | error err =>
    dsimp only
    split
    · exact .ret trivial (onOk_error _)
    refine Holds.try ((get_holds n.key).mono fun r _ _ hr q hq => ?_)
    dsimp only
    split
    · exact .ret trivial (onOk_error _)
    rename_i hsame
    obtain ⟨hkey, hsameVolume⟩ := hr q hq
    exact .ret trivial (onOk_ok (.inr ⟨hkey, hsameVolume.fingerprint ▸ not_not.1 hsame⟩))

/-- **What a successful creation has seen.** -/
theorem createVolume_holds (polls : ℕ) (r : CreateVolumeRequest) : Meets (Shows p)
    (OnOk fun resp _ => ∃ n q, normalize r = .ok n ∧ createdVolume r n q = .ok resp ∧ SameVolume p q ∧
      (Requested n.partition p ∨
        n.key = p.key ∧ p.spec.requestFingerprint = fingerprintCreateVolumeRequest n.canonical))
    (createVolume polls r) () := by
  unfold createVolume
  rcases hn : normalize r with err | n
  · exact .ret trivial (onOk_error _)
  refine Holds.try ((createOrReuse_holds n).mono fun a _ _ hmade u hu => ?_)
  have hwait : Meets (Shows p) (fun _ _ => True) (waitForPartitionReady n.key polls) () :=
    Holds.of_only (waitForPartitionReady_only (fun _ h => h) n.key polls) trivial fun _ _ _ _ _ _ _ => trivial
  refine Holds.try (hwait.mono fun _ _ _ _ _ _ => ?_)
  refine Holds.try ((get_holds n.key).mono fun _ _ _ hq q hget => ?_)
  exact .ret trivial fun resp hresp => ⟨n, q, rfl, hresp, (hq q hget).2, hmade u hu⟩

end creation

/-! ### Filesystems -/

section filesystems

variable [StdLib] {parameters : Params} {capabilities : List (Option VolumeCapability)} {filesystem : Str}

omit [StdLib] in
theorem supported_ne_nil (h : filesystem ∈ supportedFilesystems) : filesystem ≠ [] := by
  rintro rfl
  exact absurd h (by decide)

theorem spelled_supported [StdLib.LawfulCase] (h : filesystem ∈ supportedFilesystems) : spelled filesystem = some filesystem := by
  have hplain : framed filesystem = true ∧ filesystem.all (fun c => graphic c && !(65 ≤ c && c ≤ 90)) = true := by
    revert filesystem
    decide
  have htrim : trimSpace filesystem = filesystem := trimSpace_framed hplain.1
  have hlower : toLower filesystem = filesystem := StdLib.LawfulCase.toLower_lower hplain.2
  rw [spelled, htrim, if_neg (supported_ne_nil h), normalizeFilesystem, htrim, hlower]

theorem ne_nil_of_named [StdLib.LawfulCase] {f : Str} (h : f ∈ named capabilities) : f ≠ [] := by
  obtain ⟨c, -, hc⟩ := List.mem_filterMap.1 h
  obtain ⟨mount, -, hf⟩ := Option.bind_eq_some_iff.1 hc
  unfold spelled at hf
  split at hf
  · cases hf
  rename_i hblank
  cases hf
  exact StdLib.LawfulCase.toLower_ne_nil hblank

theorem hasCapabilityFilesystem_eq_false (h : hasCapabilityFilesystem capabilities = false) : named capabilities = [] := by
  refine List.filterMap_eq_nil_iff.2 fun c hc => ?_
  have hnone := List.any_eq_false.1 h c hc
  cases hm : c.bind (·.mount) with
  | none => rfl
  | some mount =>
    rw [hm] at hnone
    simp only [ne_eq, decide_not, Bool.not_eq_true', Bool.not_eq_false, decide_eq_true_eq] at hnone
    rw [Option.bind_some, spelled, if_pos hnone]

theorem resolveFilesystem_supported (h : resolveFilesystem parameters capabilities = .ok filesystem) :
    filesystem ∈ supportedFilesystems := by
  unfold resolveFilesystem at h
  split at h
  · split at h
    · cases h
    · exact (validateFilesystem_eq_ok h).2
  · simp only [bind, Except.bind] at h
    split at h
    · cases h
    · exact (validateFilesystem_eq_ok h).2

theorem resolveFilesystem_forced [StdLib.LawfulCase] (hcsi : parameters.lookup csiFilesystemParameter = none)
    (h : filesystem ∈ supportedFilesystems) :
    resolveFilesystem ((filesystemParameter, filesystem) :: parameters) capabilities = .ok filesystem := by
  have hother : List.lookup csiFilesystemParameter ((filesystemParameter, filesystem) :: parameters) = none := by
    rw [List.lookup_cons, show (csiFilesystemParameter == filesystemParameter) = false by decide]
    exact hcsi
  have hexplicit : explicitFilesystems ((filesystemParameter, filesystem) :: parameters) = [filesystem] := by
    rw [explicitFilesystems_eq]
    simp [hother, spelled_supported h]
  unfold resolveFilesystem
  rw [hexplicit]
  simp [validateFilesystem, h]

/-- Without a name in the parameters, the capabilities name the filesystem that is found. -/
theorem named_of_resolve [StdLib.LawfulCase] (hnone : explicitFilesystems parameters = [])
    (h : resolveFilesystem parameters capabilities = .ok filesystem) : ∀ f ∈ named capabilities, f = filesystem := by
  intro f hf
  unfold resolveFilesystem at h
  rw [hnone] at h
  simp only [bind, Except.bind] at h
  split at h
  · cases h
  rename_i requested hrequested
  obtain ⟨hall, -, -⟩ := named_of_requested hrequested
  have hne := ne_nil_of_named hf
  obtain rfl := hall f hf hne
  rw [if_neg hne] at h
  exact (validateFilesystem_eq_ok h).1.symm

end filesystems

/-! ### The persisted volume -/

section persisted

variable [StdLib] {r : CreateVolumeRequest} {n : Normalized} {p : NVMePartition}

section

omit [StdLib]

theorem mapsEqual_plain {o : Params} (h : o = [] ∨ ∃ mask, o = [(Options.spdkCoreMaskOption, mask)]) : mapsEqual o o = true := by
  rcases h with rfl | ⟨mask, rfl⟩ <;> simp [mapsEqual]

/-- The contexts of two partitions have the same keys. -/
theorem mapsEqual_context {q : NVMePartition} :
    mapsEqual (volumeContextForPartition q) (volumeContextForPartition p) = true ↔
      volumeContextForPartition q = volumeContextForPartition p := by
  have hlookup : mapsEqual (volumeContextForPartition q) (volumeContextForPartition p) = true ↔
      ∀ kv ∈ volumeContextForPartition q, (volumeContextForPartition p).lookup kv.1 = some kv.2 := by
    have hlength : (volumeContextForPartition q).length = (volumeContextForPartition p).length := rfl
    simp only [mapsEqual, hlength, decide_true, Bool.true_and, List.all_eq_true, decide_eq_true_eq]
  rw [hlookup]
  constructor
  · intro h
    have hnqn : p.status.nqn = q.status.nqn := Option.some.inj (h _ (.head _))
    have hip : p.status.portalIP = q.status.portalIP := Option.some.inj (h _ (.tail _ (.head _)))
    have hport : itoa p.status.portalPort = itoa q.status.portalPort :=
      Option.some.inj (h _ (.tail _ (.tail _ (.head _))))
    have hfs : (if p.spec.filesystem = [] then defaultFilesystem else p.spec.filesystem) =
        if q.spec.filesystem = [] then defaultFilesystem else q.spec.filesystem :=
      Option.some.inj (h _ (.tail _ (.tail _ (.tail _ (.head _)))))
    rw [volumeContextForPartition, volumeContextForPartition, hnqn, hip, hport, hfs]
  · intro h kv hkv
    rw [h] at hkv
    simp only [volumeContextForPartition, List.mem_cons, List.not_mem_nil, or_false] at hkv
    rcases hkv with rfl | rfl | rfl | rfl <;> rfl

theorem contextFilesystem_eq (h : p.spec.filesystem ≠ []) :
    contextFilesystem (volumeContextForPartition p) = p.spec.filesystem := by
  have hlookup : contextFilesystem (volumeContextForPartition p) =
      if p.spec.filesystem = [] then defaultFilesystem else p.spec.filesystem := rfl
  rw [hlookup, if_neg h]

theorem names_of_configuration {parameters options : Params} {backend manager : Str}
    (h : storageConfiguration parameters = .ok (backend, manager, options)) : backend ≠ [] ∧ manager ≠ [] := by
  obtain ⟨-, -, -, hcombination, -⟩ := storageConfiguration_eq_ok h
  refine ⟨backend_ne_nil hcombination, ?_⟩
  rintro rfl
  unfold validateStorageCombination at hcombination
  split_ifs at hcombination with hbackend hmanager
  exact hmanager (by decide)

end

theorem storage_confirmed (hmap : IsMap r.parameters) (hn : normalize r = .ok n) (hp : Requested n.partition p) :
    validatePersistedStorage p r.parameters = .ok () := by
  obtain ⟨-, -, hstorage, -, hkey⟩ := normalize_eq_ok hn
  obtain ⟨hbackend, hmanager⟩ := names_of_configuration hstorage
  have hequal := mapsEqual_plain (options_of_configuration hmap hstorage)
  have hns : p.metadata.ns = parameterOr r.parameters "csi.storage.k8s.io/pvc/namespace" "default" := by
    have hns := congrArg Key.ns (hp.key.trans (show n.partition.key = n.key from rfl))
    rw [hkey] at hns
    exact hns
  have hb : p.spec.targetBackend = n.canonical.targetBackend := hp.backend
  have hm : p.spec.volumeManager = n.canonical.volumeManager := hp.manager
  have ho : p.spec.targetOptions = n.canonical.targetOptions := hp.options
  simp only [validatePersistedStorage, hstorage, bind, Except.bind, pure, Except.pure, throw, throwThe,
    MonadExceptOf.throw, hb, hm, ho, hbackend, hmanager, hequal, if_false, ne_eq, not_true_eq_false,
    Bool.true_eq_false, or_self]
  cases hlookup : r.parameters.lookup (str "csi.storage.k8s.io/pvc/namespace") with
  | none => rfl
  | some ns =>
    have hsame : (if ns = [] then str "default" else ns) = p.metadata.ns := by
      rw [hns, parameterOr, hlookup]
      cases ns <;> simp
    simp only [hsame, not_true_eq_false, if_false]

variable {v : ValidateVolumeCapabilitiesRequest}

/-- **What it takes to confirm a request with the parameters that made the partition.** -/
theorem validatePersisted_iff (hmap : IsMap r.parameters) (hn : normalize r = .ok n) (hp : Requested n.partition p)
    (hparameters : v.parameters = r.parameters)
    (hcontext : v.volumeContext = [] ∨ v.volumeContext = volumeContextForPartition p) :
    validatePersistedVolumeRequest p v = .ok () ↔ ∃ mode, validateVolumeCapabilities
      (validationParameters (volumeContextForPartition p) v) v.volumeCapabilities = .ok ⟨mode, p.spec.filesystem⟩ := by
  obtain ⟨hcapability, -, -, -, -⟩ := normalize_eq_ok hn
  obtain ⟨-, -, hresolve, hmode⟩ := validateVolumeCapabilities_eq_ok hcapability
  have hfs : p.spec.filesystem ≠ [] := by
    rw [hp.filesystem]
    exact supported_ne_nil (resolveFilesystem_supported hresolve)
  have haccess : p.spec.accessMode = supportedAccessMode.string := hp.accessMode.trans hmode
  have hexpected : (if p.spec.accessMode = [] then supportedAccessMode.string else p.spec.accessMode) =
      supportedAccessMode.string := by
    rw [haccess]
    decide
  have hpass : ¬(v.volumeContext ≠ [] ∧ mapsEqual v.volumeContext (volumeContextForPartition p) = false) := by
    rintro ⟨hne, hdiffers⟩
    rw [hcontext.resolve_left hne, mapsEqual_context.2 rfl] at hdiffers
    cases hdiffers
  have hstorage : (if v.parameters = [] then Except.ok () else validatePersistedStorage p v.parameters) = .ok () := by
    rw [hparameters, storage_confirmed hmap hn hp, ite_self]
  simp only [validatePersistedVolumeRequest, bind, Except.bind, pure, Except.pure, throw, throwThe, MonadExceptOf.throw,
    hpass, if_false, contextFilesystem_eq hfs, hexpected]
  rcases hvalidate : validateVolumeCapabilities (validationParameters (volumeContextForPartition p) v) v.volumeCapabilities
    with err | c
  · simp
  obtain ⟨-, -, -, hc⟩ := validateVolumeCapabilities_eq_ok hvalidate
  obtain ⟨mode, filesystem⟩ := c
  simp only at hc
  by_cases hsame : filesystem = p.spec.filesystem
  · simp [hc, hsame, hstorage]
  · simp [hc, hsame]

/-- A context is compared before all else. -/
theorem context_of_validated (h : validatePersistedVolumeRequest p v = .ok ())
    (hne : v.volumeContext ≠ []) : mapsEqual v.volumeContext (volumeContextForPartition p) = true := by
  by_contra hdiffers
  rw [validatePersistedVolumeRequest, if_pos ⟨hne, Bool.eq_false_iff.2 hdiffers⟩] at h
  cases h

/-- The request is confirmed, by the partitions that are stored. -/
def Confirmed (s : Store NVMePartitionSpec NVMePartitionStatus) (v : ValidateVolumeCapabilitiesRequest) : Prop :=
  ∃ answer, run (servePartitions []) (ControllerServer.validateVolumeCapabilities v) s = some (.ok answer, s) ∧
    answer.confirmed.isSome = true

theorem confirmed_iff {s : Store NVMePartitionSpec NVMePartitionStatus} (hstored : s.find p.key = some p) 
    (hparse : VolumeIdentity.parseVolumeHandle v.volumeID = .ok ⟨p.metadata.ns, p.metadata.name, p.metadata.uid⟩) :
    Confirmed s v ↔ validatePersistedVolumeRequest p v = .ok () := by
  have hid : v.volumeID ≠ [] := by
    intro hnil
    rw [hnil, show VolumeIdentity.parseVolumeHandle [] = .error (.errorf "unsupported volume handle format" []) from rfl]
      at hparse
    cases hparse
  have hget : found (s.find ⟨p.metadata.ns, p.metadata.name⟩) = .ok p := by
    rw [show (⟨p.metadata.ns, p.metadata.name⟩ : Key) = p.key from rfl, hstored]
    rfl
  have hpartition : Yields (servePartitions []) (fun a t => a = .ok p ∧ t = s) (partitionForVolumeHandle v.volumeID) s := by
    unfold partitionForVolumeHandle
    rw [hparse]
    refine .check (.op (Call.api (.get .partition .api ⟨p.metadata.ns, p.metadata.name⟩)) rfl ⟨p, hget, ?_⟩)
    rw [if_neg (not_not.2 rfl)]
    exact .ret ⟨rfl, rfl⟩
  have hrun : run (servePartitions []) (ControllerServer.validateVolumeCapabilities v) s =
      some (.ok (match validatePersistedVolumeRequest p v with
        | .error err => unconfirmedCapabilities err.text
        | .ok _ => ⟨some (v.volumeContext, v.volumeCapabilities, v.parameters), []⟩), s) := by
    apply Yields.run_eq
    rw [ControllerServer.validateVolumeCapabilities, if_neg hid]
    refine .check (hpartition.mono ?_)
    rintro _ _ ⟨rfl, rfl⟩
    refine ⟨p, rfl, ?_⟩
    cases validatePersistedVolumeRequest p v with
    | error err => exact .ret ⟨rfl, rfl⟩
    | ok _ => exact .ret ⟨rfl, rfl⟩
  unfold Confirmed
  rw [hrun]
  cases validatePersistedVolumeRequest p v with
  | error err =>
    simp only [reduceCtorEq, iff_false]
    rintro ⟨_, heq, hsome⟩
    cases heq
    cases hsome
  | ok _ => exact iff_of_true ⟨_, rfl, rfl⟩ rfl

end persisted

/-! ### Agreement -/

section agreement

variable [StdLib] {r r₀ : CreateVolumeRequest} {n n₀ : Normalized} {p : NVMePartition}

theorem requested_of_fingerprint (hmap0 : IsMap r₀.parameters) (hn0 : normalize r₀ = .ok n₀) (hmade : Requested n₀.partition p)
    (hmap : IsMap r.parameters) (hn : normalize r = .ok n)
    (hsha : sha256 n₀.canonical.marshal = sha256 n.canonical.marshal → n₀.canonical.marshal = n.canonical.marshal)
    (hkey : n.key = p.key) (h : p.spec.requestFingerprint = fingerprintCreateVolumeRequest n.canonical) :
    Requested n.partition p := by
  have heq : n₀.canonical = n.canonical :=
    marshal_inj (plain_of_normalize hmap0 hn0) (plain_of_normalize hmap hn) (hsha (hexEncode_inj (hmade.fingerprint.symm.trans h)))
  have hspec : n₀.partition.spec = n.partition.spec := by rw [Normalized.partition, Normalized.partition, heq]
  obtain ⟨-, hmode, hfs, hfp, hb, hm, ho⟩ := hmade
  rw [hspec] at hmode hfs hfp hb hm ho
  exact ⟨hkey.symm, hmode, hfs, hfp, hb, hm, ho⟩

omit [StdLib] in
theorem parse_answered {q : NVMePartition} {resp : CreateVolumeResponse} (hne : p.metadata.ns ≠ [] ∧ p.metadata.name ≠ [])
    (huid : p.metadata.uid ≠ []) (hq : SameVolume p q) (h : volumeIDForPartition q = .ok resp.volumeID) :
    VolumeIdentity.parseVolumeHandle resp.volumeID = .ok ⟨p.metadata.ns, p.metadata.name, p.metadata.uid⟩ := by
  obtain ⟨i, hi⟩ := VolumeIdentity.exists_new hne.1 hne.2 huid
  have hhandle : resp.volumeID = i.volumeHandle := by
    unfold volumeIDForPartition at h
    split at h
    · rw [hq.ns, hq.name, hq.uid, hi] at h
      simp only [Except.map, Except.ok.injEq] at h
      exact h.symm
    · rename_i hrecorded
      simp only [Except.ok.injEq] at h
      rw [← h]
      exact (hq.volumeID i hi).resolve_left hrecorded
  rw [hhandle]
  exact VolumeIdentity.parseVolumeHandle_new hi

variable {v : ValidateVolumeCapabilitiesRequest}

theorem repeated_confirmed [StdLib.LawfulCase] (hn : normalize r = .ok n) (hp : Requested n.partition p)
    (hparameters : v.parameters = r.parameters) (hcapabilities : v.volumeCapabilities = r.volumeCapabilities)
    (hcontext : v.volumeContext = [] ∨ v.volumeContext = volumeContextForPartition p) :
    ∃ mode, validateVolumeCapabilities (validationParameters (volumeContextForPartition p) v) v.volumeCapabilities =
      .ok ⟨mode, p.spec.filesystem⟩ := by
  obtain ⟨hcapability, -, -, -, -⟩ := normalize_eq_ok hn
  obtain ⟨hne, hcheck, hresolve, -⟩ := validateVolumeCapabilities_eq_ok hcapability
  have hfilesystem : n.canonical.capability.filesystem = p.spec.filesystem := hp.filesystem.symm
  rw [hfilesystem] at hresolve
  have hsupported := resolveFilesystem_supported hresolve
  have hfs := contextFilesystem_eq (supported_ne_nil hsupported)
  suffices hfound : resolveFilesystem (validationParameters (volumeContextForPartition p) v) v.volumeCapabilities =
      .ok p.spec.filesystem by
    refine ⟨supportedAccessMode.string, ?_⟩
    rw [hcapabilities] at hfound ⊢
    simp [validateVolumeCapabilities, hne, hcheck, hfound, bind, Except.bind, pure, Except.pure]
  unfold validationParameters
  rw [hparameters, hcapabilities, hfs]
  split
  · exact hresolve
  rename_i hkey
  simp only [hasFilesystemKey, Bool.or_eq_true, Option.isSome_iff_ne_none, not_or, not_not] at hkey
  split
  · rename_i hgiven
    rcases hcontext with hnone | hsame
    · rw [hnone] at hgiven
      exact absurd rfl hgiven
    · rw [hsame, hfs]
      exact resolveFilesystem_forced hkey.2 hsupported
  split
  · exact hresolve
  · exact resolveFilesystem_forced hkey.2 hsupported

/-- Where the context does not stand in for the parameters, the capabilities decide. -/
theorem named_of_validated [StdLib.LawfulCase] {context : Params} {mode filesystem : Str}
    (hnone : explicitFilesystems v.parameters = []) (h : v.volumeContext = [] ∨ hasFilesystemKey v.parameters = true)
    (hvalid : validateVolumeCapabilities (validationParameters context v) v.volumeCapabilities = .ok ⟨mode, filesystem⟩) :
    ∀ f ∈ named v.volumeCapabilities, f = filesystem := by
  obtain ⟨-, -, hresolve, -⟩ := validateVolumeCapabilities_eq_ok hvalid
  unfold validationParameters at hresolve
  split at hresolve
  · exact named_of_resolve hnone hresolve
  rename_i hkey
  have hempty : contextFilesystem v.volumeContext = [] := by
    rw [h.resolve_right hkey]
    rfl
  rw [if_neg (not_not.2 hempty)] at hresolve
  split at hresolve
  · exact named_of_resolve hnone hresolve
  rename_i hcaps
  rw [hasCapabilityFilesystem_eq_false (Bool.not_eq_true _ ▸ hcaps)]
  exact nofun

/-- One mounted volume for one writer, with the filesystem given in these words. -/
def mounted (fsType : Str) : List (Option VolumeCapability) := [some ⟨some ⟨fsType, []⟩, some .singleNodeWriter⟩]

/-- Where the context stands in for the parameters, nobody looks at the capabilities. -/
theorem forced_validated [StdLib.LawfulCase] (context : Params) {filesystem : Str}
    (hkey : hasFilesystemKey v.parameters = false) (hcontext : contextFilesystem v.volumeContext = filesystem)
    (hsupported : filesystem ∈ supportedFilesystems) (fsType : Str) :
    validateVolumeCapabilities (validationParameters context { v with volumeCapabilities := mounted fsType }) (mounted fsType) =
      .ok ⟨supportedAccessMode.string, filesystem⟩ := by
  have hparameters : validationParameters context { v with volumeCapabilities := mounted fsType } =
      (filesystemParameter, filesystem) :: v.parameters := by
    unfold validationParameters
    rw [if_neg (Bool.eq_false_iff.1 hkey), hcontext, if_pos (supported_ne_nil hsupported)]
  have hcsi : v.parameters.lookup csiFilesystemParameter = none := by
    simp only [hasFilesystemKey, Bool.or_eq_false_iff, Option.isSome_eq_false_iff, Option.isNone_iff_eq_none] at hkey
    exact hkey.2
  have hcheck : checkCapabilities (mounted fsType) 0 [] = .ok () := by
    simp [mounted, checkCapabilities, supportedAccessMode]
  rw [hparameters, validateVolumeCapabilities, if_neg (by simp [mounted])]
  simp [hcheck, resolveFilesystem_forced hcsi hsupported, bind, Except.bind, pure, Except.pure]

/-- **Validation and creation.**  The partition `p` was made for a request `r₀`; `r` was answered for it, too.  With the
parameters of `r` and either no context or the one of the answer, the capabilities of `r` are confirmed exactly if there
is no context or it is still the one of the partition.  If the parameters name no filesystem, the confirmed requests name
none but the persisted one exactly if there is no context, the parameters have a key for a filesystem, or the context is
out of date (and nothing is confirmed). -/
theorem named_filesystem_iff [StdLib.LawfulCase] (polls : ℕ) (r₀ r : CreateVolumeRequest) (n₀ : Normalized)
    (p : NVMePartition) (resp : CreateVolumeResponse) (s : Store NVMePartitionSpec NVMePartitionStatus)
    (v : ValidateVolumeCapabilitiesRequest)
    (hmap₀ : IsMap r₀.parameters) (hmap : IsMap r.parameters) (hn₀ : normalize r₀ = .ok n₀)
    (hmade : Requested n₀.partition p) (huid : p.metadata.uid ≠ [])
    (hsha : ∀ n, normalize r = .ok n → sha256 n₀.canonical.marshal = sha256 n.canonical.marshal →
      n₀.canonical.marshal = n.canonical.marshal)
    (hcreated : Reaches (Shows p) (createVolume polls r) () (.ret (.ok resp)) ()) (hstored : s.find p.key = some p)
    (hid : v.volumeID = resp.volumeID) (hparameters : v.parameters = r.parameters)
    (hcontext : v.volumeContext = [] ∨ v.volumeContext = resp.volumeContext) :
    (Confirmed s { v with volumeCapabilities := r.volumeCapabilities } ↔
        (v.volumeContext = [] ∨ resp.volumeContext = volumeContextForPartition p)) ∧
      (explicitFilesystems r.parameters = [] →
        ((∀ capabilities, Confirmed s { v with volumeCapabilities := capabilities } →
          ∀ f ∈ named capabilities, f = p.spec.filesystem) ↔
        (v.volumeContext = [] ∨ hasFilesystemKey v.parameters = true ∨
          resp.volumeContext ≠ volumeContextForPartition p))) := by
  obtain ⟨-, hseen⟩ := hcreated.holds (createVolume_holds polls r)
  obtain ⟨n, q, hn, hanswer, hq, hrequested⟩ := hseen resp rfl
  have hp : Requested n.partition p := by
    rcases hrequested with h | ⟨hkey, h⟩
    · exact h
    · exact requested_of_fingerprint hmap₀ hn₀ hmade hmap hn (hsha n hn) hkey h
  have hnames : p.metadata.ns ≠ [] ∧ p.metadata.name ≠ [] := by
    have hkey : p.key = n.key := hp.key
    have hne := key_of_normalize hn
    rw [← hkey] at hne
    exact hne
  obtain ⟨hanswered, hgiven⟩ := createdVolume_eq_ok hanswer
  have hparse := parse_answered hnames huid hq hanswered
  rw [← hid] at hparse
  have hiff (capabilities) := confirmed_iff (v := { v with volumeCapabilities := capabilities }) hstored hparse
  -- what is confirmed has no context, or the one of today
  have hfresh : ∀ capabilities, Confirmed s { v with volumeCapabilities := capabilities } →
      v.volumeContext = [] ∨ resp.volumeContext = volumeContextForPartition p := by
    intro capabilities hconfirmed
    refine or_iff_not_imp_left.2 fun hne => ?_
    have hequal := context_of_validated ((hiff capabilities).1 hconfirmed) hne
    change mapsEqual v.volumeContext _ = true at hequal
    rw [hcontext.resolve_left hne, hgiven] at hequal
    rw [hgiven]
    exact mapsEqual_context.1 hequal
  have htoday (h : v.volumeContext = [] ∨ resp.volumeContext = volumeContextForPartition p) :
      v.volumeContext = [] ∨ v.volumeContext = volumeContextForPartition p :=
    h.elim .inl fun h => hcontext.imp_right fun hv => hv.trans h
  have hvalid (h : v.volumeContext = [] ∨ v.volumeContext = volumeContextForPartition p) (capabilities) :=
    (hiff capabilities).trans
      (validatePersisted_iff (v := { v with volumeCapabilities := capabilities }) hmap hn hp hparameters h)
  refine ⟨⟨hfresh _, fun h => (hvalid (htoday h) _).2 (repeated_confirmed hn hp hparameters rfl (htoday h))⟩,
    fun hnone => ⟨fun hall => ?_, ?_⟩⟩
  · by_contra hstands
    rw [not_or, not_or, Bool.not_eq_true, not_not] at hstands
    obtain ⟨hne, hkey, hsame⟩ := hstands
    have hsupported : p.spec.filesystem ∈ supportedFilesystems := by
      obtain ⟨hcapability, -, -, -, -⟩ := normalize_eq_ok hn
      rw [hp.filesystem]
      exact resolveFilesystem_supported (validateVolumeCapabilities_eq_ok hcapability).2.2.1
    have hfs : contextFilesystem v.volumeContext = p.spec.filesystem := by
      rw [hcontext.resolve_left hne, hsame]
      exact contextFilesystem_eq (supported_ne_nil hsupported)
    -- the other filesystem is named, and nobody sees it
    obtain ⟨other, hother, hdiffers⟩ : ∃ other ∈ supportedFilesystems, other ≠ p.spec.filesystem := by
      revert hsupported
      generalize p.spec.filesystem = filesystem
      revert filesystem
      decide
    have hnamed : other ∈ named (mounted other) := by
      simp [named, mounted, spelled_supported hother]
    have hforced := forced_validated (volumeContextForPartition p) hkey hfs hsupported other
    exact hdiffers (hall (mounted other) ((hvalid (htoday (.inr hsame)) _).2 ⟨_, hforced⟩) other hnamed)
  · intro hdecides capabilities hconfirmed
    have hcurrent := hfresh capabilities hconfirmed
    obtain ⟨mode, hvalidated⟩ := (hvalid (htoday hcurrent) capabilities).1 hconfirmed
    refine named_of_validated (v := { v with volumeCapabilities := capabilities }) (hparameters ▸ hnone) ?_ hvalidated
    rcases hdecides with h | h | h
    · exact .inl h
    · exact .inr h
    · exact .inl (hcurrent.resolve_right h)

end agreement

section run

attribute [local instance] asciiLib

def sampleRequest : CreateVolumeRequest := ⟨"v", none, mounted [], []⟩

def sampleNormalized : Normalized where
  key := ⟨"default", "v"⟩
  expectedAllocation := 1073741824
  canonical := ⟨1073741824, 1073741824, "spdk", "partition", [], ⟨"SINGLE_NODE_WRITER", "ext4"⟩⟩

/-- The partition of the sample request, exported. -/
def sampleVolume : NVMePartition where
  metadata := { ns := "default", name := "v", uid := "u" }
  spec := sampleNormalized.partition.spec
  status := { state := .exported, nqn := "nqn", portalIP := "10.0.0.1", portalPort := 4420 }

/-- The server creates the partition, and shows it exported. -/
def serveSample : (c : Call) → Unit → Option (c.Resp × Unit)
  | .api (.create .partition asked), _ => if asked = sampleNormalized.partition then some (.ok sampleVolume, ()) else none
  | .api (.get .partition _ key), _ => if key = sampleVolume.key then some (.ok sampleVolume, ()) else none
  | .proc .select, _ => some (.ticker, ())
  | _, _ => none

def sampleResponse : CreateVolumeResponse where
  volumeID := "distort-v1.ZGVmYXVsdA.dg.dQ"
  capacityBytes := 1073741824
  volumeContext := volumeContextForPartition sampleVolume

theorem sample_created : Reaches (Shows sampleVolume) (createVolume 0 sampleRequest) () (.ret (.ok sampleResponse)) () := by
  have hrun : run serveSample (createVolume 0 sampleRequest) () = some (.ok sampleResponse, ()) := by decide +kernel
  have hreaches := reaches_of_run (f := ret) hrun
  rw [bind_ret] at hreaches
  refine hreaches.mono fun c _ r _ h => ?_
  have hrequested : Requested sampleNormalized.partition sampleVolume := ⟨rfl, rfl, rfl, rfl, rfl, rfl, rfl⟩
  have hsame : SameVolume sampleVolume sampleVolume := ⟨rfl, rfl, rfl, rfl, fun _ _ => .inl rfl⟩
  unfold Shows
  split
  · intro o _
    change (if _ = sampleNormalized.partition then _ else _) = _ at h
    split at h
    · rename_i hasked
      rw [hasked]
      exact hrequested
    · cases h
  · intro q hq
    change (if _ = sampleVolume.key then _ else _) = _ at h
    split at h
    · rename_i hkey
      cases h
      cases hq
      exact ⟨hkey, hsame⟩
    · cases h
  · trivial

theorem named_filesystem_iff_sample :
    Confirmed ⟨[sampleVolume], 1⟩ ⟨sampleResponse.volumeID, [], sampleRequest.volumeCapabilities, []⟩ ∧
      ∀ capabilities, Confirmed ⟨[sampleVolume], 1⟩ ⟨sampleResponse.volumeID, [], capabilities, []⟩ →
        ∀ f ∈ named capabilities, f = sampleVolume.spec.filesystem := by
  have hn : normalize sampleRequest = .ok sampleNormalized := rfl
  obtain ⟨hrepeated, hnamed⟩ := named_filesystem_iff 0 sampleRequest sampleRequest sampleNormalized sampleVolume
    sampleResponse ⟨[sampleVolume], 1⟩ ⟨sampleResponse.volumeID, [], [], []⟩ (by decide) (by decide) hn
    ⟨rfl, rfl, rfl, rfl, rfl, rfl, rfl⟩ (by decide) (fun n h _ => by rw [Except.ok.inj (hn.symm.trans h)])
    sample_created rfl rfl rfl (.inl rfl)
  exact ⟨hrepeated.2 (.inl rfl), (hnamed rfl).2 (.inl rfl)⟩

/-- The same partition, exported again on another address. -/
def sampleMoved : NVMePartition := { sampleVolume with status.portalIP := "10.0.0.2" }

/-- A volume with ext4.  With its context, the capability of a volume with xfs is confirmed for it; and with a context
from before it was exported again, not even the capability that it was made for. -/
theorem other_filesystem_confirmed :
    Reaches (Shows sampleVolume) (createVolume 0 sampleRequest) () (.ret (.ok sampleResponse)) () ∧
      Confirmed ⟨[sampleVolume], 1⟩
        ⟨sampleResponse.volumeID, sampleResponse.volumeContext, mounted "xfs", sampleRequest.parameters⟩ ∧
      explicitFilesystems sampleRequest.parameters = [] ∧ str "xfs" ∈ named (mounted "xfs") ∧
      sampleVolume.spec.filesystem = str "ext4" ∧
      ¬ Confirmed ⟨[sampleMoved], 1⟩
        ⟨sampleResponse.volumeID, sampleResponse.volumeContext, sampleRequest.volumeCapabilities, sampleRequest.parameters⟩ := by
  refine ⟨sample_created, (confirmed_iff (p := sampleVolume) rfl ?_).2 ?_, by decide, by decide, rfl,
    fun h => absurd ((confirmed_iff (p := sampleMoved) rfl ?_).1 h) ?_⟩
  all_goals decide

end run

end Distort.Csi
