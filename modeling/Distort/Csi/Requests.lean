import Distort.Csi.Negotiation
import Distort.Go.Text
import Distort.Lib.Server
import Distort.Lib.Store

/-!
When two requests to create a volume are the same request.

* `Plain` — what a validated request looks like: its numbers are not negative, and it has at most one option;
* `marshal_inj` — plain requests are told apart by their encodings;
* `reuse_iff_agree` — a second request is taken for the first exactly if they agree in their canonical form, and so
  it is for every way of spelling the same request.
-/

namespace Distort.Csi

open Go Lib Lib.Kube Api Proc Prog

/-! ### Encodings -/

theorem itoa_split {n m : ℤ} (hn : 0 ≤ n) (hm : 0 ≤ m) {x y : Str} (h : itoa n ++ 44 :: x = itoa m ++ 44 :: y) :
    n = m ∧ x = y := by
  obtain ⟨n, rfl⟩ := Int.eq_ofNat_of_zero_le hn
  obtain ⟨m, rfl⟩ := Int.eq_ofNat_of_zero_le hm
  have hcomma : ∀ k : ℕ, (44 : UInt8) ∉ itoa k := fun k hk => absurd (digit_of_mem_itoa hk) (by decide)
  obtain ⟨hdigits, hrest⟩ := (PrefixCode.upTo (44 : UInt8)).split (hcomma n) (hcomma m) (x := x) (y := y) (by simpa using h)
  refine ⟨?_, hrest⟩
  have hvalue := congrArg digitsValue hdigits
  rw [digitsValue_itoa, digitsValue_itoa] at hvalue
  rw [hvalue]

theorem jsonString_split {s t x y : Str} (h : jsonString s ++ x = jsonString t ++ y) : s = t ∧ x = y :=
  jsonString_prefixCode.split trivial trivial h

/-- What validation leaves of a request. -/
structure Plain (c : CanonicalCreateVolumeRequest) : Prop where
  required : 0 ≤ c.requiredBytes
  limit : 0 ≤ c.limitBytes
  options : c.targetOptions = [] ∨ ∃ mask, c.targetOptions = [(Options.spdkCoreMaskOption, mask)]

theorem jsonMap_split {o o' : Params} (ho : o = [] ∨ ∃ mask, o = [(Options.spdkCoreMaskOption, mask)])
    (ho' : o' = [] ∨ ∃ mask, o' = [(Options.spdkCoreMaskOption, mask)]) {x y : Str}
    (h : jsonMap o ++ x = jsonMap o' ++ y) : o = o' ∧ x = y := by
  have hnil : jsonMap [] = [123, 125] := rfl
  have hone : ∀ mask, jsonMap [(Options.spdkCoreMaskOption, mask)] =
      [123] ++ jsonString Options.spdkCoreMaskOption ++ [58] ++ jsonString mask ++ [125] := by
    intro mask
    simp [jsonMap, jsonObject, join]
  rcases ho with rfl | ⟨mask, rfl⟩ <;> rcases ho' with rfl | ⟨mask', rfl⟩
  · exact ⟨rfl, by simpa [hnil] using h⟩
  · simp [hnil, hone, jsonString] at h
  · simp [hnil, hone, jsonString] at h
  simp only [hone, List.append_assoc, List.append_cancel_left_eq] at h
  obtain ⟨rfl, hrest⟩ := jsonString_split h
  exact ⟨rfl, by simpa using hrest⟩

theorem marshal_eq (c : CanonicalCreateVolumeRequest) : c.marshal =
    str "\x7b\"requiredBytes\":" ++ (itoa c.requiredBytes ++ 44 :: (str "\"limitBytes\":" ++ (itoa c.limitBytes ++ 44 ::
      (str "\"targetBackend\":" ++ (jsonString c.targetBackend ++ (str ",\"volumeManager\":" ++
      (jsonString c.volumeManager ++ (str ",\"targetOptions\":" ++ (jsonMap c.targetOptions ++
      (str ",\"capability\":\x7b\"accessMode\":" ++ (jsonString c.capability.accessMode ++ (str ",\"filesystem\":" ++
      (jsonString c.capability.filesystem ++ str "\x7d\x7d"))))))))))))) := by
  have hlast : ∀ member : Str, join [member] "," = member := fun member => by simp [join]
  simp only [CanonicalCreateVolumeRequest.marshal, jsonObject, List.map_cons, List.map_nil,
    join_cons _ (List.cons_ne_nil _ _), hlast, List.append_assoc, List.cons_append, List.nil_append]
  rfl

/-- **Encodings tell plain requests apart.** -/
theorem marshal_inj {c c' : CanonicalCreateVolumeRequest} (hc : Plain c) (hc' : Plain c') (h : c.marshal = c'.marshal) :
    c = c' := by
  rw [marshal_eq, marshal_eq, List.append_cancel_left_eq] at h
  obtain ⟨hrequired, h⟩ := itoa_split hc.required hc'.required h
  rw [List.append_cancel_left_eq] at h
  obtain ⟨hlimit, h⟩ := itoa_split hc.limit hc'.limit h
  rw [List.append_cancel_left_eq] at h
  obtain ⟨hbackend, h⟩ := jsonString_split h
  rw [List.append_cancel_left_eq] at h
  obtain ⟨hmanager, h⟩ := jsonString_split h
  rw [List.append_cancel_left_eq] at h
  obtain ⟨hoptions, h⟩ := jsonMap_split hc.options hc'.options h
  rw [List.append_cancel_left_eq] at h
  obtain ⟨hmode, h⟩ := jsonString_split h
  rw [List.append_cancel_left_eq] at h
  obtain ⟨hfilesystem, -⟩ := jsonString_split h
  obtain ⟨_, _, _, _, _, ⟨_, _⟩⟩ := c
  obtain ⟨_, _, _, _, _, ⟨_, _⟩⟩ := c'
  simp_all

/-! ### Validated requests -/

/-- A list that can be a map: no key twice. -/
def IsMap (m : Params) : Prop := (m.map Prod.fst).Nodup

instance (m : Params) : Decidable (IsMap m) := inferInstanceAs (Decidable (List.Nodup _))

variable {backend manager : Str}

theorem storageConfiguration_eq_ok {parameters options : Params}
    (h : storageConfiguration parameters = .ok (backend, manager, options)) :
    backend = parameterOr parameters "target-backend" spdkTargetBackend ∧
      manager = parameterOr parameters "volume-manager" partitionVolumeManager ∧ options = backendOptions parameters ∧
      validateStorageCombination backend manager = .ok () ∧ Options.validate backend options = .ok () := by
  simp only [storageConfiguration, bind, Except.bind, pure, Except.pure] at h
  split at h
  · cases h
  rename_i hcombination
  split at h
  · cases h
  rename_i hoptions
  cases h
  exact ⟨rfl, rfl, rfl, hcombination, hoptions⟩

theorem backend_ne_nil (h : validateStorageCombination backend manager = .ok ()) : backend ≠ [] := by
  rintro rfl
  exact absurd h (by simp [validateStorageCombination, spdkTargetBackend, kernelTargetBackend, str])

theorem options_of_configuration {parameters options : Params} (hmap : IsMap parameters)
    (h : storageConfiguration parameters = .ok (backend, manager, options)) :
    options = [] ∨ ∃ mask, options = [(Options.spdkCoreMaskOption, mask)] := by
  obtain ⟨-, -, rfl, hcombination, hvalid⟩ := storageConfiguration_eq_ok h
  have hname := (Options.validate_eq_ok (backend_ne_nil hcombination)).1 hvalid
  have hnodup : ((backendOptions parameters).map Prod.fst).Nodup :=
    hmap.sublist (List.Sublist.map _ List.filter_sublist)
  match hoptions : backendOptions parameters with
  | [] => exact .inl rfl
  | [(name, mask)] =>
    rw [hoptions] at hname
    obtain ⟨hkey, -, -⟩ := hname _ (List.mem_singleton_self _)
    exact .inr ⟨mask, by rw [← hkey]⟩
  | a :: b :: rest =>
    -- two entries would have one key
    rw [hoptions] at hname hnodup
    obtain ⟨ha, -, -⟩ := hname a (by simp)
    obtain ⟨hb, -, -⟩ := hname b (by simp)
    simp [ha, hb] at hnodup

variable {capabilities : List (Option VolumeCapability)}

section requests

variable [StdLib]

variable {req : CreateVolumeRequest} {n : Normalized}

/-- **What normalization comes to.** -/
theorem normalize_eq_ok (h : normalize req = .ok n) :
    validateVolumeCapabilities req.parameters req.volumeCapabilities = .ok n.canonical.capability ∧
      normalizeCapacityRange req.capacityRange = .ok (n.canonical.requiredBytes, n.expectedAllocation) ∧
      storageConfiguration req.parameters =
        .ok (n.canonical.targetBackend, n.canonical.volumeManager, n.canonical.targetOptions) ∧
      n.canonical.limitBytes = req.capacityRange.elim defaultVolumeCapacityBytes (·.limitBytes) ∧
      n.key = ⟨parameterOr req.parameters "csi.storage.k8s.io/pvc/namespace" "default", req.name⟩ := by
  simp only [normalize, bind, Except.bind, pure, Except.pure, throw, throwThe, MonadExceptOf.throw] at h
  split at h
  · cases h
  rcases hcapability : validateVolumeCapabilities req.parameters req.volumeCapabilities with err | capability
  · simp [hcapability, Except.mapError] at h
  rcases hrange : normalizeCapacityRange req.capacityRange with err | range
  · simp [hcapability, hrange, Except.mapError] at h
  rcases hstorage : storageConfiguration req.parameters with err | storage
  · simp [hcapability, hrange, hstorage, Except.mapError] at h
  simp only [hcapability, hrange, hstorage, Except.mapError, Except.ok.injEq] at h
  subst h
  exact ⟨rfl, rfl, rfl, rfl, rfl⟩

theorem key_of_normalize (h : normalize req = .ok n) : n.key.ns ≠ [] ∧ n.key.name ≠ [] := by
  have hname : req.name ≠ [] := by
    rintro hnil
    simp [normalize, hnil, bind, Except.bind, throw, throwThe, MonadExceptOf.throw] at h
  obtain ⟨-, -, -, -, hkey⟩ := normalize_eq_ok h
  rw [hkey]
  refine ⟨?_, hname⟩
  unfold parameterOr
  split
  · exact List.cons_ne_nil _ _
  · exact (by decide : str "default" ≠ [])

theorem plain_of_normalize (hmap : IsMap req.parameters) (h : normalize req = .ok n) : Plain n.canonical := by
  obtain ⟨-, hrange, hstorage, hlimit, -⟩ := normalize_eq_ok h
  have hoptions := options_of_configuration hmap hstorage
  cases hr : req.capacityRange with
  | none =>
    rw [hr] at hrange hlimit
    simp only [normalizeCapacityRange, Except.ok.injEq, Prod.mk.injEq] at hrange
    exact ⟨by rw [← hrange.1]; decide, by rw [hlimit]; decide, hoptions⟩
  | some range =>
    rw [hr] at hrange hlimit
    obtain ⟨hrequired, hnonneg, -, -, hround, -⟩ := normalizeCapacityRange_eq_ok.1 hrange
    have hpos := (Capacity.roundUp_eq_ok.1 hround).1
    exact ⟨hpos.le, by rw [hlimit]; exact hnonneg, hoptions⟩

/-! ### Ways to spell a request -/

/-- The filesystem that a text stands for, up to letter case and blanks around it. -/
def spelled (s : Str) : Option Str := if trimSpace s = [] then none else some (normalizeFilesystem s)

/-- A capability, up to the spelling of its filesystem. -/
def VolumeCapability.spelled (c : VolumeCapability) : Option (Option Str × List Str) × Option AccessMode :=
  (c.mount.map fun m => (Csi.spelled m.fsType, m.mountFlags), c.accessMode)

/-- The filesystems that the capabilities name. -/
def named (capabilities : List (Option VolumeCapability)) : List Str :=
  capabilities.filterMap fun c => (c.bind (·.mount)).bind fun m => spelled m.fsType

/-- Two requests that ask for the same: the sizes are equal; the parameters are equal as maps, but for the metadata of
the provisioner and for the spelling of the filesystem; and each has the capabilities of the other, up to the
spelling of the filesystem. -/
structure Alike (r r' : CreateVolumeRequest) : Prop where
  range : r.capacityRange = r'.capacityRange
  parameters : ∀ k, hasPrefix k "csi.storage.k8s.io/" = false → k ≠ filesystemParameter →
    r.parameters.lookup k = r'.parameters.lookup k
  filesystems : ∀ k ∈ [filesystemParameter, csiFilesystemParameter],
    (r.parameters.lookup k).bind spelled = (r'.parameters.lookup k).bind spelled
  capabilities : ∀ c, c ∈ r.volumeCapabilities.map (Option.map (·.spelled)) ↔
    c ∈ r'.volumeCapabilities.map (Option.map (·.spelled))

theorem explicitFilesystems_eq (parameters : Params) : explicitFilesystems parameters =
    [filesystemParameter, csiFilesystemParameter].filterMap fun k => (parameters.lookup k).bind spelled := by
  unfold explicitFilesystems
  congr 1
  funext k
  cases parameters.lookup k with
  | none => rfl
  | some value =>
    simp only [Option.bind_some, spelled]
    split <;> rename_i h <;> simp [h]

/-- The capabilities name one filesystem at most, and it is the one that is found. -/
theorem named_of_requested {requested filesystem : Str}
    (h : requestedFilesystem capabilities requested = .ok filesystem) :
    (∀ f ∈ named capabilities, f ≠ [] → f = filesystem) ∧ (requested ≠ [] → filesystem = requested) ∧
      (filesystem = requested ∨ filesystem ∈ named capabilities) := by
  induction capabilities generalizing requested with
  | nil =>
    cases h
    simp [named]
  | cons c capabilities ih =>
    have hskip : (c.bind (·.mount)).bind (fun m => spelled m.fsType) = none → named (c :: capabilities) = named capabilities := by
      intro hnone
      simp [named, hnone]
    unfold requestedFilesystem at h
    split at h
    · rename_i hmount
      rw [hskip (by rw [hmount]; rfl)]
      exact ih h
    rename_i mount hmount
    split at h
    · rename_i hblank
      rw [hskip (by rw [hmount]; simp [spelled, hblank])]
      exact ih h
    rename_i hfs
    simp only at h
    split at h
    · cases h
    rename_i hsame
    have hnamed : named (c :: capabilities) = normalizeFilesystem mount.fsType :: named capabilities := by
      simp [named, hmount, spelled, hfs]
    obtain ⟨hall, hkept, hfrom⟩ := ih h
    rw [hnamed]
    refine ⟨fun f hf hne => ?_, fun hne => ?_, ?_⟩
    · rcases List.mem_cons.1 hf with rfl | hf
      · exact (hkept hne).symm
      · exact hall f hf hne
    · have heq : normalizeFilesystem mount.fsType = requested := by
        by_contra hdiffers
        exact hsame ⟨hne, hdiffers⟩
      exact (hkept (heq ▸ hne)).trans heq
    · rcases hfrom with rfl | hfrom
      · exact .inr (List.mem_cons_self ..)
      · exact .inr (List.mem_cons_of_mem _ hfrom)

theorem requestedFilesystem_congr {capabilities' : List (Option VolumeCapability)} {f f' : Str}
    (hnamed : ∀ g, g ∈ named capabilities ↔ g ∈ named capabilities')
    (h : requestedFilesystem capabilities [] = .ok f) (h' : requestedFilesystem capabilities' [] = .ok f') : f = f' := by
  obtain ⟨hall, -, hfrom⟩ := named_of_requested h
  obtain ⟨hall', -, hfrom'⟩ := named_of_requested h'
  by_cases hf : f = []
  · by_cases hf' : f' = []
    · rw [hf, hf']
    · exact (hall f' ((hnamed f').2 (hfrom'.resolve_left hf')) hf').symm
  · exact hall' f ((hnamed f).1 (hfrom.resolve_left hf)) hf

theorem validateVolumeCapabilities_eq_ok {parameters : Params}
    {c : CanonicalVolumeCapability} (h : validateVolumeCapabilities parameters capabilities = .ok c) :
    capabilities ≠ [] ∧ checkCapabilities capabilities 0 [] = .ok () ∧
      resolveFilesystem parameters capabilities = .ok c.filesystem ∧ c.accessMode = supportedAccessMode.string := by
  simp only [validateVolumeCapabilities, bind, Except.bind, pure, Except.pure, throw, throwThe,
    MonadExceptOf.throw] at h
  split at h
  · cases h
  rename_i hne
  rcases hcheck : checkCapabilities capabilities 0 [] with err | _
  · simp [hcheck] at h
  rcases hresolve : resolveFilesystem parameters capabilities with err | filesystem
  · simp [hcheck, hresolve] at h
  simp only [hcheck, hresolve, Except.ok.injEq] at h
  subst h
  exact ⟨hne, rfl, rfl, rfl⟩

omit [StdLib] in
theorem validateFilesystem_eq_ok {filesystem f : Str} (h : validateFilesystem filesystem = .ok f) :
    f = filesystem ∧ f ∈ supportedFilesystems := by
  unfold validateFilesystem at h
  split at h
  · rename_i hmem
    cases h
    exact ⟨rfl, hmem⟩
  · cases h

/-- The filesystem depends on the names in the parameters and in the capabilities. -/
theorem resolveFilesystem_congr {parameters parameters' : Params} {capabilities' : List (Option VolumeCapability)}
    {f f' : Str} (hexplicit : explicitFilesystems parameters = explicitFilesystems parameters')
    (hnamed : ∀ g, g ∈ named capabilities ↔ g ∈ named capabilities')
    (h : resolveFilesystem parameters capabilities = .ok f) (h' : resolveFilesystem parameters' capabilities' = .ok f') :
    f = f' := by
  unfold resolveFilesystem at h h'
  rw [← hexplicit] at h'
  split at h
  · rename_i first rest hfirst
    simp only [hfirst] at h'
    split at h
    · cases h
    rename_i hall
    rw [if_neg hall] at h'
    exact (validateFilesystem_eq_ok h).1.trans (validateFilesystem_eq_ok h').1.symm
  · rename_i hnone
    simp only [hnone, bind, Except.bind] at h h'
    split at h
    · cases h
    rename_i requested hrequested
    split at h'
    · cases h'
    rename_i requested' hrequested'
    obtain rfl := requestedFilesystem_congr hnamed hrequested hrequested'
    exact (validateFilesystem_eq_ok h).1.trans (validateFilesystem_eq_ok h').1.symm

theorem named_eq (capabilities : List (Option VolumeCapability)) : named capabilities =
    (capabilities.map (Option.map (·.spelled))).filterMap fun c => (c.bind (·.1)).bind (·.1) := by
  rw [named, List.filterMap_map]
  congr 1
  funext c
  cases c with
  | none => rfl
  | some c => cases hm : c.mount <;> simp [VolumeCapability.spelled, hm]

/-! ### The same request -/

/-- Two canonical requests agree: the options are compared as maps. -/
def Agree (c c' : CanonicalCreateVolumeRequest) : Prop :=
  c.requiredBytes = c'.requiredBytes ∧ c.limitBytes = c'.limitBytes ∧ c.targetBackend = c'.targetBackend ∧
    c.volumeManager = c'.volumeManager ∧ (∀ k, c.targetOptions.lookup k = c'.targetOptions.lookup k) ∧
    c.capability.accessMode = c'.capability.accessMode ∧ c.capability.filesystem = c'.capability.filesystem

section

omit [StdLib]

theorem Plain.eq_of_agree {c c' : CanonicalCreateVolumeRequest} (hc : Plain c) (hc' : Plain c') (h : Agree c c') : c = c' := by
  obtain ⟨hrequired, hlimit, hbackend, hmanager, hlookup, hmode, hfilesystem⟩ := h
  have hoptions : c.targetOptions = c'.targetOptions := by
    have hmask := hlookup Options.spdkCoreMaskOption
    rcases hc.options with ho | ⟨mask, ho⟩ <;> rcases hc'.options with ho' | ⟨mask', ho'⟩ <;> rw [ho, ho'] at hmask ⊢ <;>
      simp_all
  obtain ⟨_, _, _, _, _, ⟨_, _⟩⟩ := c
  obtain ⟨_, _, _, _, _, ⟨_, _⟩⟩ := c'
  simp_all

theorem lookup_filter (p : Str → Bool) (m : Params) (k : Str) :
    (m.filter fun kv => p kv.1).lookup k = if p k then m.lookup k else none := by
  induction m with
  | nil => simp
  | cons kv m ih =>
    obtain ⟨key, value⟩ := kv
    by_cases hkey : k = key
    · subst hkey
      by_cases hp : p k = true <;> simp [hp, ih]
    have hskip : ∀ l : Params, List.lookup k ((key, value) :: l) = List.lookup k l := by
      intro l
      rw [List.lookup_cons, beq_false_of_ne hkey]
    by_cases hp : p key = true <;> simp [hp, ih, hskip]

theorem lookup_backendOptions (parameters : Params) (k : Str) : (backendOptions parameters).lookup k =
    if !hasPrefix k "csi.storage.k8s.io/" && k ≠ str "target-backend" && k ≠ str "volume-manager" &&
      k ≠ filesystemParameter then parameters.lookup k else none :=
  lookup_filter (fun k => !hasPrefix k "csi.storage.k8s.io/" && k ≠ str "target-backend" && k ≠ str "volume-manager" &&
    k ≠ filesystemParameter) parameters k

end

/-- **Requests that ask for the same agree.** -/
theorem Alike.agree {r r' : CreateVolumeRequest} {n n' : Normalized} (h : Alike r r') (hn : normalize r = .ok n)
    (hn' : normalize r' = .ok n') : Agree n.canonical n'.canonical := by
  obtain ⟨hcapability, hrange, hstorage, hlimit, -⟩ := normalize_eq_ok hn
  obtain ⟨hcapability', hrange', hstorage', hlimit', -⟩ := normalize_eq_ok hn'
  obtain ⟨-, -, hresolve, hmode⟩ := validateVolumeCapabilities_eq_ok hcapability
  obtain ⟨-, -, hresolve', hmode'⟩ := validateVolumeCapabilities_eq_ok hcapability'
  obtain ⟨hbackend, hmanager, hoptions, -, -⟩ := storageConfiguration_eq_ok hstorage
  obtain ⟨hbackend', hmanager', hoptions', -, -⟩ := storageConfiguration_eq_ok hstorage'
  have hparameter : ∀ k fallback : Str, hasPrefix k "csi.storage.k8s.io/" = false → k ≠ filesystemParameter →
      parameterOr r.parameters k fallback = parameterOr r'.parameters k fallback := by
    intro k fallback hk hk'
    unfold parameterOr
    rw [h.parameters k hk hk']
  have hexplicit : explicitFilesystems r.parameters = explicitFilesystems r'.parameters := by
    rw [explicitFilesystems_eq, explicitFilesystems_eq]
    exact List.filterMap_congr h.filesystems
  have hnamed : ∀ g, g ∈ named r.volumeCapabilities ↔ g ∈ named r'.volumeCapabilities := by
    intro g
    simp only [named_eq, List.mem_filterMap, h.capabilities]
  rw [← h.range, hrange] at hrange'
  refine ⟨?_, ?_, ?_, ?_, fun k => ?_, ?_, ?_⟩
  · simp only [Except.ok.injEq, Prod.mk.injEq] at hrange'
    exact hrange'.1
  · rw [hlimit, hlimit', h.range]
  · rw [hbackend, hbackend']
    exact hparameter _ _ (by decide) (by decide)
  · rw [hmanager, hmanager']
    exact hparameter _ _ (by decide) (by decide)
  · rw [hoptions, hoptions', lookup_backendOptions, lookup_backendOptions]
    split
    · rename_i hk
      simp only [Bool.and_eq_true, Bool.not_eq_true', decide_eq_true_eq] at hk
      exact h.parameters k hk.1.1.1 hk.2
    · rfl
  · rw [hmode, hmode']
  · exact resolveFilesystem_congr hexplicit hnamed hresolve hresolve'

/-! ### The second request -/

/-- The API server, asked for partitions only; `uid` is for the next one. -/
def servePartitions (uid : Str) :
    (c : Call) → Store NVMePartitionSpec NVMePartitionStatus → Option (c.Resp × Store NVMePartitionSpec NVMePartitionStatus)
  | .api (.create .partition obj), s => some (s.create uid {} obj)
  | .api (.get .partition _ key), s => some (found (s.find key), s)
  | _, _ => none

omit [StdLib] in
theorem createOrReuse_run (uid : Str) {s : Store NVMePartitionSpec NVMePartitionStatus} {p : NVMePartition}
    (hstored : s.find n.key = some p) : ∃ e : Status, e.code = .alreadyExists ∧
      run (servePartitions uid) (createOrReuse n) s =
        some (if p.spec.requestFingerprint ≠ fingerprintCreateVolumeRequest n.canonical then .error e else .ok (), s) := by
  have hcreate : s.create uid {} n.partition = (.error alreadyExists, s) := by
    have hkey : n.partition.key = n.key := rfl
    rw [Store.create, hkey, hstored]
  have hget : found (s.find n.key) = .ok p := by rw [hstored]; rfl
  have hexists : (!alreadyExists.isAlreadyExists) = false := rfl
  refine ⟨.errorf .alreadyExists ("partition %s/%s already exists with different immutable CreateVolume " ++
    "properties; delete the existing partition or PVC first") [.str n.key.ns, .str n.key.name], rfl, ?_⟩
  apply Yields.run_eq
  refine .check_error (.op (Call.api (.create .partition n.partition)) (congrArg some hcreate) ⟨_, rfl, ?_⟩)
  simp only [hexists, Bool.false_eq_true, if_false]
  refine .check (.op (Call.api (.get .partition .api n.key)) rfl ⟨p, hget, ?_⟩)
  by_cases hsame : p.spec.requestFingerprint ≠ fingerprintCreateVolumeRequest n.canonical
  · rw [if_pos hsame, if_pos hsame]
    exact .ret ⟨rfl, rfl⟩
  · rw [if_neg hsame, if_neg hsame]
    exact .ret ⟨rfl, rfl⟩

/-- **When a second request is the first one again.**  Both are valid and name one partition, which was made for the
first.  The second is answered as a repetition exactly if the canonical forms agree, and as a conflict otherwise; a
second way to spell the first request is a repetition. -/
theorem reuse_iff_agree (r r' : CreateVolumeRequest) (n n' : Normalized) (hmap : IsMap r.parameters)
    (hmap' : IsMap r'.parameters) (hn : normalize r = .ok n) (hn' : normalize r' = .ok n') (hkey : n'.key = n.key)
    (hsha : sha256 n.canonical.marshal = sha256 n'.canonical.marshal → n.canonical.marshal = n'.canonical.marshal)
    (uid : Str) (s : Store NVMePartitionSpec NVMePartitionStatus) (p : NVMePartition) (hstored : s.find n.key = some p)
    (hmade : p.spec.requestFingerprint = n.partition.spec.requestFingerprint) :
    (run (servePartitions uid) (createOrReuse n') s = some (.ok (), s) ↔ Agree n.canonical n'.canonical) ∧
      (¬ Agree n.canonical n'.canonical → ∃ e : Status, e.code = .alreadyExists ∧
        run (servePartitions uid) (createOrReuse n') s = some (.error e, s)) ∧
      (Alike r r' → run (servePartitions uid) (createOrReuse n') s = some (.ok (), s)) := by
  have hplain := plain_of_normalize hmap hn
  have hplain' := plain_of_normalize hmap' hn'
  have hfingerprint : p.spec.requestFingerprint = fingerprintCreateVolumeRequest n'.canonical ↔
      Agree n.canonical n'.canonical := by
    rw [hmade]
    constructor
    · intro h
      have heq : n.canonical = n'.canonical := marshal_inj hplain hplain' (hsha (hexEncode_inj h))
      rw [heq]
      exact ⟨rfl, rfl, rfl, rfl, fun _ => rfl, rfl, rfl⟩
    · intro h
      rw [← hplain.eq_of_agree hplain' h]
      rfl
  obtain ⟨e, hcode, hrun⟩ := createOrReuse_run uid (hkey ▸ hstored)
  rw [hrun]
  by_cases h : Agree n.canonical n'.canonical
  · rw [if_neg (not_not.2 (hfingerprint.2 h))]
    exact ⟨iff_of_true rfl h, fun hnot => absurd h hnot, fun _ => rfl⟩
  rw [if_pos fun heq => h (hfingerprint.1 heq)]
  refine ⟨iff_of_false (fun heq => ?_) h, fun _ => ⟨e, hcode, rfl⟩, fun halike => absurd (halike.agree hn hn') h⟩
  cases heq

end requests

section run

attribute [local instance] asciiLib

/-- A mounted volume for one writer, with the filesystem given in these words. -/
def mountOf (fsType : Str) : Option VolumeCapability := some ⟨some ⟨fsType, []⟩, some .singleNodeWriter⟩

/-- One request, spelled in two ways. -/
def plainly : CreateVolumeRequest := ⟨"v", some ⟨5, 0⟩, [mountOf []], [("fsType", "xfs"), ("spdk-core-mask", "0x3")]⟩

def oddly : CreateVolumeRequest where
  name := "v"
  capacityRange := some ⟨5, 0⟩
  volumeCapabilities := [mountOf [], mountOf []]
  parameters := [("spdk-core-mask", "0x3"), ("csi.storage.k8s.io/pvc/name", "claim"), ("fsType", " XFS ")]

def plainlyNormalized : Normalized where
  key := ⟨"default", "v"⟩
  expectedAllocation := 4194304
  canonical := ⟨5, 0, "spdk", "partition", [("spdk-core-mask", "0x3")], ⟨"SINGLE_NODE_WRITER", "xfs"⟩⟩

theorem reuse_iff_agree_spelling :
    run (servePartitions "u2") (createOrReuse plainlyNormalized) ⟨[plainlyNormalized.partition], 1⟩ =
      some (.ok (), ⟨[plainlyNormalized.partition], 1⟩) := by
  have halike : Alike plainly oddly := by
    refine ⟨rfl, ?_, by decide, ?_⟩
    · intro k hmetadata hfilesystem
      have hname : k ≠ str "csi.storage.k8s.io/pvc/name" := by
        rintro rfl
        exact absurd hmetadata (by decide)
      have hk : (k == str "fsType") = false := beq_false_of_ne hfilesystem
      have hk' : (k == str "csi.storage.k8s.io/pvc/name") = false := beq_false_of_ne hname
      simp [plainly, oddly, List.lookup_cons, hk, hk']
    · simp [plainly, oddly]
  exact (reuse_iff_agree plainly oddly plainlyNormalized plainlyNormalized (by decide) (by decide) rfl rfl rfl
    (fun _ => rfl) "u2" ⟨[plainlyNormalized.partition], 1⟩ plainlyNormalized.partition rfl rfl).2.2 halike

end run

end Distort.Csi
