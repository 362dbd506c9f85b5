import Distort.Agent.BackendKernel
import Distort.Agent.BackendSpdk
import Distort.Agent.PartitionManager
import Distort.Lib.Run
import Distort.Manager.Placement

/-!
What the agent makes of an exported partition that it looks at: a target that could not be looked at is not a
target at fault.

A run is one of `reconcile`, with the health check of both backends as they make it, and their other methods
single steps.  Each read of the check has any answer; where it has the one that the target state gives
(`Answers`), the state is known.  The check of the backend in question announces its arguments by a call
`checkExport` of its own, so that a run shows what was looked for.

* `inspectExport_heeds`, `kernel_heeds` — a read of the check that fails makes an SPDK export unobservable, and a kernel
  export unhealthy;
* `check_under`, `invisible_under` — a check whose reads all answer finds every fault, unless SPDK cannot be looked at;
* `told_apart` — no repair after a read of SPDK that failed, and a repair after every fault that was seen; what the
  kernel backend, and SPDK without the volume, make of theirs.

`confused` has runs of the two that go wrong.
-/

namespace Distort.Agent.Observation

open Go Lib Lib.Kube Lib.Prog Api Proc

/-! ### The target -/

/-- What there is to be seen of the targets of a node. -/
structure Target where
  /-- The core mask of the running `nvmf_tgt`. -/
  process : Option Str := none
  subsystems : List Subsystem := []
  /-- The bdevs that a name stands for. -/
  bdevs : Str → List Bdev := fun _ => []
  files : Path → Option Str := fun _ => none
  dirs : Path → Option (List Str) := fun _ => none
  links : Path → Option Path := fun _ => none

/-- The answer to a read in the configuration file system: what is missing gives a not-exist error. -/
def Reads {α : Type} : Option α → Except Err α → Prop
  | some a, .ok b => b = a
  | none, .error err => err.isNotFound = true
  | _, _ => False

variable {α : Type}

@[simp] theorem reads_ok {o : Option α} {a : α} : Reads o (.ok a) ↔ o = some a := by
  cases o <;> simp [Reads, eq_comm]

variable {err : Err}

@[simp] theorem reads_error {o : Option α} : Reads o (.error err) ↔ o = none ∧ err.isNotFound = true := by
  cases o <;> simp [Reads]

/-- The answer to a look for a bdev: SPDK reports an unknown name as an error. -/
def Looks : List Bdev → Except Err (List Bdev) → Prop
  | [], .error _ => True
  | b :: bs, .ok bdevs => bdevs = b :: bs
  | _, _ => False

/-- The answer to a read of a check is what the target state gives. -/
def Answers (σ : Target) : (c : Call) → c.Resp → Prop
  | .node .inspectSPDKProcess, r => r = .ok σ.process
  | .node .waitForSPDKRPC, r => r = .ok ()
  | .node (.startSPDKProcess _), r => r = .ok ()
  | .rpc .nvmfGetSubsystems, r => r = .ok σ.subsystems
  | .rpc (.bdevGetBdevs (some name)), r => Looks (σ.bdevs name) r
  | .fs (.readFile path), r => Reads (σ.files path) r
  | .fs (.readDir path), r => Reads (σ.dirs path) r
  | .fs (.readlink path), r => Reads (σ.links path) r
  | .proc .ctxErr, r => r = none
  | _, _ => True

/-- A read of a check has an error as its answer. -/
def refused : (c : Call) → c.Resp → Bool
  | .node .inspectSPDKProcess, r => !r.isOk
  | .node .waitForSPDKRPC, r => !r.isOk
  | .node (.startSPDKProcess _), r => !r.isOk
  | .rpc .nvmfGetSubsystems, r => !r.isOk
  | .rpc (.bdevGetBdevs _), r => !r.isOk
  | .fs (.readFile _), r => !r.isOk
  | .fs (.readDir _), r => !r.isOk
  | .fs (.readlink _), r => !r.isOk
  | .proc .ctxErr, r => r.isSome
  | _, _ => false

/-- A read fails for another reason than that the item is absent, or the context is cancelled. -/
def Unobserved (σ : Target) (c : Call) (r : c.Resp) : Prop := refused c r = true ∧ ¬ Answers σ c r

/-- The error of a read in the file system, or of a context, is not an `ExportObservationError`. -/
def Plain : (c : Call) → c.Resp → Prop
  | .fs (.readFile _), r => ∀ err, r = .error err → err.kind ≠ .observation
  | .fs (.readDir _), r => ∀ err, r = .error err → err.kind ≠ .observation
  | .fs (.readlink _), r => ∀ err, r = .error err → err.kind ≠ .observation
  | .proc .ctxErr, r => ∀ err, r = some err → err.kind ≠ .observation
  | _, _ => True

/-- `SetupDevice`, `SetupStorage`, `CreateVolume` or `ExportVolume`. -/
def repairs : Call → Bool
  | .plugin (.setupDevice _ _ _) | .plugin (.setupStorage _ _) => true
  | .plugin (.createVolume _ _ _ _) | .plugin (.exportVolume _ _ _ _ _) => true
  | _ => false

def announces : Call → Bool
  | .plugin (.checkExport _ _ _ _ _) => true
  | _ => false

/-- A call that has nothing to do with looking at the target. -/
def quiet (c : Call) : Bool := !Spdk.inspects c && !Kernel.inspects c && !announces c

/-- Such a call that repairs nothing. -/
def neutral (c : Call) : Bool := quiet c && !repairs c

/-! ### A target without a fault -/

/-- The namespace is on the volume: it has one of its names. -/
def Backs (σ : Target) (blockPath : Str) (n : Namespace) : Prop :=
  ∃ name : Str, name ≠ [] ∧ (n.name = name ∨ n.bdevName = name) ∧
    (name = blockPath ∨ ∃ b ∈ σ.bdevs blockPath, name = b.name ∨ name = b.uuid ∨ name ∈ b.aliases)

/-- SPDK can be looked at: it runs with the core mask that is asked for, if at all, and it knows the volume of a
subsystem that is there. -/
def Visible (σ : Target) (nqn blockPath : Str) (options : Options) : Prop :=
  (∃ mask, Spdk.canonicalSPDKCoreMask (Spdk.coreMaskOption options) = .ok mask ∧
    (σ.process = none ∨ σ.process = some mask)) ∧
  ((∃ s ∈ σ.subsystems, s.nqn = nqn) → σ.bdevs blockPath ≠ [])

/-! ### The plugins -/

inductive Backend where
  | spdk | kernel
  deriving DecidableEq

def Backend.name : Backend → Str
  | .spdk => "spdk"
  | .kernel => "kernel"

/-- What the result of a check stands for. -/
def health : Except Err Unit → ExportHealth
  | .ok _ => .healthy
  | .error err => if err.kind = .observation then .unobservable else .unhealthy

variable {p : NVMePartition}

section

variable [StdLib]

/-- The health check of a backend. -/
def Backend.check : Backend → CheckExport
  | .spdk => Spdk.checkExport
  | .kernel => Kernel.checkExport

omit [StdLib] in
/-- A check that shows its arguments first. -/
def announced (check : CheckExport) : CheckExport := fun nqn blockPath portalIP portalPort options =>
  plugin (.checkExport nqn blockPath portalIP portalPort options) >>= fun _ =>
  check nqn blockPath portalIP portalPort options

/-- A backend with its own health check; the other methods are single steps. -/
def targetBackend (shown b : Backend) : TargetBackend :=
  { TargetBackend.atomic b.name with checkExport := some (if b = shown then announced b.check else b.check) }

/-- The plugins of the agent; the check of one backend is announced. -/
def plugins (shown : Backend) : Plugins where
  backends := [targetBackend shown .spdk, targetBackend shown .kernel]
  volumeManagers := Plugins.atomic.volumeManagers

/-! ### What a check looks for -/

/-- There are the subsystem, the volume, a namespace on it and the listener. -/
def SpdkIntact (σ : Target) (nqn blockPath portalIP : Str) (portalPort : ℤ) : Prop :=
  ∃ s, σ.subsystems.find? (fun s => s.nqn = nqn) = some s ∧ σ.bdevs blockPath ≠ [] ∧
    (∃ n ∈ s.namespaces, Backs σ blockPath n) ∧
    ∃ l ∈ s.listenAddresses, equalFold l.trtype "RDMA" = true ∧ l.traddr = portalIP ∧ l.trsvcid = itoa portalPort

/-- There are the files with their values, the only namespace and the link to the port. -/
def KernelIntact (σ : Target) (nqn blockPath portalIP : Str) (portalPort : ℤ) : Prop :=
  ∃ addressFamily, Kernel.kernelAddressFamily portalIP = .ok addressFamily ∧
    (∀ v ∈ Kernel.requiredValues nqn blockPath addressFamily portalIP portalPort,
      (σ.files v.1).map trimSpace = some v.2) ∧
    σ.dirs (Kernel.namespacesPath nqn) = some [str "1"] ∧
    σ.links (Kernel.linkPath nqn) = some (Kernel.subsystemPath nqn)

def Intact : Backend → Target → (nqn blockPath portalIP : Str) → (portalPort : ℤ) → Prop
  | .spdk => SpdkIntact
  | .kernel => KernelIntact

/-! ### Reads that fail -/

variable {c : Call}

omit [StdLib] in
theorem heeds_op {Q : c.Resp → Prop} (h : ∀ r, refused c r = true → Q r) :
    (.call c .ret : Proc c.Resp).Heeds (fun c r => refused c r = true) Q :=
  fun r => ⟨h r, trivial⟩

omit [StdLib] in
theorem ensureSPDKRunning_heeds (coreMask : Str) :
    (Spdk.ensureSPDKRunning coreMask).Heeds (fun c r => refused c r = true) fun r => r.isOk = false := by
  unfold Spdk.ensureSPDKRunning
  split
  · trivial
  refine Heeds.check (heeds_op fun r hr => by simpa [refused] using hr) (fun err => rfl) (fun err => trivial)
    fun process => ?_
  split
  · split
    · trivial
    · exact heeds_op fun r hr => by simpa [refused] using hr
  · exact heeds_op fun r hr => by simpa [refused] using hr

/-- **A read of the check that fails makes the export unobservable.** -/
theorem inspectExport_heeds (nqn blockPath portalIP : Str) (portalPort : ℤ) (options : Options) :
    (Spdk.inspectExport nqn blockPath portalIP portalPort options).Heeds (fun c r => refused c r = true)
      fun i => i.state = .observationUnavailable := by
  refine Heeds.check (ensureSPDKRunning_heeds _) (fun err => rfl) (fun err => trivial) fun _ => ?_
  refine Heeds.check ?_ (fun err => rfl) (fun err => trivial) fun found => ?_
  · exact Heeds.check (heeds_op fun r hr => by simpa [refused] using hr) (fun err => rfl) (fun err => trivial)
      fun subsystems => trivial
  cases found with
  | none => trivial
  | some subsystem =>
    refine Heeds.check ?_ (fun err => rfl) (fun err => trivial) fun identities => ?_
    · refine Heeds.check (heeds_op fun r hr => by simpa [refused] using hr) (fun err => rfl) (fun err => trivial)
        fun bdevs => ?_
      split <;> trivial
    cases identities with
    | none => trivial
    | some identities =>
      dsimp only
      split
      · trivial
      split <;> trivial

theorem checkExport_heeds (nqn blockPath portalIP : Str) (portalPort : ℤ) (options : Options) :
    (Spdk.checkExport nqn blockPath portalIP portalPort options).Heeds (fun c r => refused c r = true)
      fun r => health r = .unobservable := by
  refine Heeds.bind (inspectExport_heeds nqn blockPath portalIP portalPort options) (fun i hi => ?_) fun i => ?_
  · rw [hi]
    exact rfl
  · split <;> trivial

/-- An error that is taken for a fault. -/
def Fault {α : Type} (r : Except Err α) : Prop := ∃ err, r = .error err ∧ err.kind ≠ .observation

/-- A read of the kernel's check that fails, for whatever reason. -/
abbrev Fails (c : Call) (r : c.Resp) : Prop := refused c r = true ∧ Plain c r

section

omit [StdLib]

theorem fault_of_refused {r : Except Err α} (hr : (!r.isOk) = true)
    (hplain : ∀ err, r = .error err → err.kind ≠ .observation) : Fault r := by
  cases r with
  | error err => exact ⟨err, rfl, hplain err rfl⟩
  | ok a => cases hr

/-- What follows a read that failed reports the fault. -/
theorem Fault.heeds {β : Type} {m : Proc (Except Err α)} {g : Err → Proc (Except Err β)} {k : α → Proc (Except Err β)}
    (hm : m.Heeds Fails Fault) (hg : ∀ e, ∃ e', g e = .ret (.error e') ∧ e'.kind = e.kind)
    (hk : ∀ a, (k a).Heeds Fails Fault) : (m.check g k).Heeds Fails Fault := by
  refine Heeds.bind hm ?_ fun r => ?_
  · rintro _ ⟨err, rfl, hkind⟩
    obtain ⟨err', heq, hkind'⟩ := hg err
    dsimp only
    rw [heq]
    exact ⟨err', rfl, hkind' ▸ hkind⟩
  · cases r with
    | error err =>
      obtain ⟨err', heq, -⟩ := hg err
      dsimp only
      rw [heq]
      trivial
    | ok a => exact hk a

end

theorem checkValues_heeds (values : List (Path × Str)) : (Kernel.checkValues values).Heeds Fails Fault := by
  induction values with
  | nil => trivial
  | cons v values ih =>
    refine Fault.heeds (Fault.heeds ?_ (fun e => ⟨e, rfl, rfl⟩) fun _ => trivial) (fun e => ⟨_, rfl, rfl⟩) fun actual => ?_
    · exact fun r => ⟨fun h => fault_of_refused h.1 h.2, trivial⟩
    · split
      · trivial
      · exact ih

/-- **A read of the kernel's check that fails is taken for a fault**, and so is a cancelled context. -/
theorem kernel_heeds (nqn blockPath portalIP : Str) (portalPort : ℤ) (options : Options) :
    (Kernel.checkExport nqn blockPath portalIP portalPort options).Heeds Fails Fault := by
  refine fun interrupted => ⟨?_, ?_⟩
  · rintro ⟨hr, hplain⟩
    cases interrupted with
    | none => cases hr
    | some err => exact ⟨err, rfl, hplain err rfl⟩
  cases interrupted with
  | some err => trivial
  | none =>
    dsimp only [Prog.ret_bind]
    split
    · trivial
    split
    · trivial
    refine Fault.heeds (checkValues_heeds _) (fun e => ⟨e, rfl, rfl⟩) fun _ => ?_
    refine Fault.heeds (fun r => ⟨fun h => fault_of_refused h.1 h.2, trivial⟩) (fun e => ⟨_, rfl, rfl⟩) fun namespaces => ?_
    split
    · trivial
    -- a link that cannot be read counts as one that is not there
    refine Heeds.bind (Q := fun linked => linked = false) (fun target => ⟨fun h => ?_, trivial⟩) ?_ fun linked => ?_
    · obtain ⟨err, rfl, -⟩ := fault_of_refused h.1 h.2
      exact rfl
    · rintro _ rfl
      exact ⟨_, rfl, nofun⟩
    · split <;> trivial

/-! ### Reads that answer -/

section

variable {σ : Target} {nqn blockPath portalIP : Str} {portalPort : ℤ} {options : Options}

section

omit [StdLib]

theorem under_op {c : Call} {Q : c.Resp → Prop} (h : ∀ r, Answers σ c r → Q r) :
    (.call c .ret : Proc c.Resp).Under (Answers σ) Q :=
  h

theorem ensureSPDKRunning_under {coreMask mask : Str} (hmask : Spdk.canonicalSPDKCoreMask coreMask = .ok mask)
    (hprocess : σ.process = none ∨ σ.process = some mask) :
    (Spdk.ensureSPDKRunning coreMask).Under (Answers σ) fun r => r = .ok () := by
  unfold Spdk.ensureSPDKRunning
  simp only [hmask]
  refine Under.check (under_op ?_)
  rintro r rfl
  rcases hprocess with hprocess | hprocess
  · simp only [hprocess]
    exact under_op fun r hr => hr
  · simp only [hprocess, ne_eq, not_true_eq_false, if_false]
    exact under_op fun r hr => hr

theorem findSubsystem_under :
    (Spdk.findSubsystem nqn).Under (Answers σ) fun r => r = .ok (σ.subsystems.find? fun s => s.nqn = nqn) := by
  refine Under.check (under_op ?_)
  rintro r rfl
  exact rfl

/-- The names of the volume, apart from empty ones. -/
def identities (σ : Target) (blockPath : Str) : List Str :=
  (blockPath :: (σ.bdevs blockPath).flatMap fun b => b.name :: b.uuid :: b.aliases).filter fun name => name ≠ []

theorem spdkBdevIdentities_under (hbdevs : σ.bdevs blockPath ≠ []) :
    (Spdk.spdkBdevIdentities blockPath).Under (Answers σ) fun r => r = .ok (some (identities σ blockPath)) := by
  refine Under.check (under_op fun r hr => ?_)
  simp only [Answers] at hr
  cases hb : σ.bdevs blockPath with
  | nil => exact absurd hb hbdevs
  | cons b bs =>
    rw [hb] at hr
    rcases r with err | bdevs
    · exact hr.elim
    cases hr
    simp only [reduceCtorEq, if_false, identities, hb]
    rfl

theorem backs_of_namespaceMatches {s : Subsystem} (h : Spdk.namespaceMatches s (identities σ blockPath) = true) :
    ∃ n ∈ s.namespaces, Backs σ blockPath n := by
  simp only [Spdk.namespaceMatches, identities, List.any_eq_true, Bool.or_eq_true, List.contains_iff_mem,
    List.mem_filter, List.mem_cons, List.mem_flatMap, decide_eq_true_eq] at h
  obtain ⟨n, hn, hname⟩ := h
  rcases hname with ⟨hname, hne⟩ | ⟨hname, hne⟩
  · exact ⟨n, hn, n.name, hne, .inl rfl, hname⟩
  · exact ⟨n, hn, n.bdevName, hne, .inr rfl, hname⟩

end

theorem exists_of_listenerMatches {s : Subsystem} (h : Spdk.listenerMatches s portalIP portalPort = true) :
    ∃ l ∈ s.listenAddresses, equalFold l.trtype "RDMA" = true ∧ l.traddr = portalIP ∧ l.trsvcid = itoa portalPort := by
  simp only [Spdk.listenerMatches, List.any_eq_true, Bool.and_eq_true, decide_eq_true_eq] at h
  obtain ⟨l, hl, ⟨hrdma, hip⟩, hport⟩ := h
  exact ⟨l, hl, hrdma, hip, hport⟩

theorem inspectExport_under (hσ : Visible σ nqn blockPath options) :
    (Spdk.inspectExport nqn blockPath portalIP portalPort options).Under (Answers σ) fun i =>
      i.state ≠ .observationUnavailable ∧ i.detail.kind = .other ∧
        (i.state = .healthy → SpdkIntact σ nqn blockPath portalIP portalPort) := by
  obtain ⟨⟨mask, hmask, hprocess⟩, hbdevs⟩ := hσ
  refine Under.check ((ensureSPDKRunning_under hmask hprocess).mono ?_)
  rintro _ rfl
  refine Under.check (findSubsystem_under.mono ?_)
  rintro _ rfl
  cases hfind : σ.subsystems.find? fun s => s.nqn = nqn with
  | none => exact ⟨nofun, rfl, nofun⟩
  | some s =>
    have hnqn : s.nqn = nqn := by simpa using List.find?_some hfind
    specialize hbdevs ⟨s, List.mem_of_find?_eq_some hfind, hnqn⟩
    refine Under.check ((spdkBdevIdentities_under hbdevs).mono ?_)
    rintro _ rfl
    dsimp only
    by_cases hns : Spdk.namespaceMatches s (identities σ blockPath) = true
    · by_cases hl : Spdk.listenerMatches s portalIP portalPort = true
      · simp only [hns, hl, Bool.not_true, Bool.false_eq_true, if_false]
        exact ⟨nofun, rfl, fun _ => ⟨s, hfind, hbdevs, backs_of_namespaceMatches hns, exists_of_listenerMatches hl⟩⟩
      · simp only [hns, hl, Bool.not_true, Bool.false_eq_true, if_false, Bool.not_false, if_true]
        exact ⟨nofun, rfl, nofun⟩
    · simp only [hns, Bool.not_false, if_true]
      exact ⟨nofun, rfl, nofun⟩

/-- What a check whose reads answer returns: nothing for a target without a fault, and else an error that is not
taken for a failure to look. -/
def Seen (intact : Prop) (r : Except Err Unit) : Prop :=
  match r with
  | .ok _ => intact
  | .error err => err.kind ≠ .observation

theorem spdk_under (hσ : Visible σ nqn blockPath options) :
    (Spdk.checkExport nqn blockPath portalIP portalPort options).Under (Answers σ)
      (Seen (SpdkIntact σ nqn blockPath portalIP portalPort)) := by
  refine Under.bind ((inspectExport_under hσ).mono ?_)
  rintro ⟨state, detail⟩ ⟨hstate, hdetail, hhealthy⟩
  cases state with
  | healthy => exact hhealthy rfl
  | observationUnavailable => exact absurd rfl hstate
  | missing | mismatch =>
    show detail.kind ≠ .observation
    rw [hdetail]
    decide

omit [StdLib] in
theorem ensureSPDKRunning_refuses {coreMask : Str}
    (h : ¬∃ mask, Spdk.canonicalSPDKCoreMask coreMask = .ok mask ∧ (σ.process = none ∨ σ.process = some mask)) :
    (Spdk.ensureSPDKRunning coreMask).Under (Answers σ) fun r => r.isOk = false := by
  unfold Spdk.ensureSPDKRunning
  split
  · exact rfl
  rename_i mask hmask
  refine Under.check (under_op ?_)
  rintro r rfl
  cases hprocess : σ.process with
  | none => exact absurd ⟨mask, hmask, .inl hprocess⟩ h
  | some running =>
    have hne : running ≠ mask := fun heq => h ⟨mask, hmask, .inr (heq ▸ hprocess)⟩
    simp only [hne, ne_eq, not_false_eq_true, if_true]
    exact rfl

/-- **Where SPDK cannot be looked at, a fault is not seen**: the check reports that it could not look. -/
theorem invisible_under (hσ : ¬Visible σ nqn blockPath options) :
    (Spdk.checkExport nqn blockPath portalIP portalPort options).Under (Answers σ) fun r => health r = .unobservable := by
  have hinspect : (Spdk.inspectExport nqn blockPath portalIP portalPort options).Under (Answers σ) fun i =>
      i.state = .observationUnavailable := by
    by_cases hmask : ∃ mask, Spdk.canonicalSPDKCoreMask (Spdk.coreMaskOption options) = .ok mask ∧
        (σ.process = none ∨ σ.process = some mask)
    · have hgone : ¬((∃ s ∈ σ.subsystems, s.nqn = nqn) → σ.bdevs blockPath ≠ []) := fun h => hσ ⟨hmask, h⟩
      rw [Classical.not_imp, not_not] at hgone
      obtain ⟨⟨s, hs, hnqn⟩, hbdevs⟩ := hgone
      obtain ⟨mask, hmask, hprocess⟩ := hmask
      refine Under.check ((ensureSPDKRunning_under hmask hprocess).mono ?_)
      rintro _ rfl
      refine Under.check (findSubsystem_under.mono ?_)
      rintro _ rfl
      cases hfind : σ.subsystems.find? fun s => s.nqn = nqn with
      | none => exact absurd (decide_eq_true hnqn) (List.find?_eq_none.1 hfind s hs)
      | some s =>
        refine Under.check (Under.check (under_op fun r hr => ?_))
        simp only [Answers, hbdevs] at hr
        rcases r with err | bdevs
        · exact rfl
        · exact hr.elim
    · refine Under.check ((ensureSPDKRunning_refuses hmask).mono fun r hr => ?_)
      cases r with
      | error err => exact rfl
      | ok _ => cases hr
  refine Under.bind (hinspect.mono fun i hi => ?_)
  rw [hi]
  exact rfl

theorem configValue_under (path : Path) :
    (Kernel.configValue path).Under (Answers σ) (Reads ((σ.files path).map trimSpace)) := by
  refine Under.check (under_op fun r hr => ?_)
  rcases r with err | v
  · obtain ⟨hfile, herr⟩ := reads_error.1 hr
    refine reads_error.2 ⟨?_, herr⟩
    rw [hfile, Option.map_none]
  refine reads_ok.2 ?_
  rw [reads_ok.1 hr, Option.map_some]

omit [StdLib] in
theorem kind_of_isNotFound (h : err.isNotFound = true) : err.kind ≠ .observation := by
  have hkind : err.kind = .notFound := by simpa [Err.isNotFound] using h
  rw [hkind]
  decide

omit [StdLib] in
theorem kind_of_reads {o : Option α} (h : Reads o (.error err)) : err.kind ≠ .observation :=
  kind_of_isNotFound (reads_error.1 h).2

theorem checkValues_under (values : List (Path × Str)) :
    (Kernel.checkValues values).Under (Answers σ) (Seen (∀ v ∈ values, (σ.files v.1).map trimSpace = some v.2)) := by
  induction values with
  | nil => exact fun v hv => nomatch hv
  | cons v values ih =>
    obtain ⟨path, expected⟩ := v
    refine Under.check ((configValue_under path).mono fun r hr => ?_)
    rcases r with err | actual
    · have hkind := kind_of_reads hr
      exact hkind
    dsimp only
    by_cases hexpected : actual = expected
    · rw [if_neg (not_not.2 hexpected)]
      refine ih.mono fun r hseen => ?_
      cases r with
      | error err => exact hseen
      | ok _ => exact List.forall_mem_cons.2 ⟨hexpected ▸ reads_ok.1 hr, hseen⟩
    · rw [if_pos hexpected]
      exact (show Kind.other ≠ .observation by decide)

omit [StdLib] in
theorem kernelLinkMatches_under : (Kernel.kernelLinkMatches nqn).Under (Answers σ) fun linked =>
      linked = true → σ.links (Kernel.linkPath nqn) = some (Kernel.subsystemPath nqn) := by
  refine Under.bind (under_op fun r hr hlinked => ?_)
  rcases r with err | target
  · simp [Except.toOption] at hlinked
  have htarget : target = Kernel.subsystemPath nqn := by simpa [Except.toOption] using hlinked
  rw [reads_ok.1 hr, htarget]

theorem kind_of_kernelAddressFamily (h : Kernel.kernelAddressFamily portalIP = .error err) : err.kind = .other := by
  unfold Kernel.kernelAddressFamily Health.parseUsableIP at h
  split at h
  · rename_i e hparse
    cases h
    split at hparse
    · split at hparse <;> cases hparse
      rfl
    · cases hparse
      rfl
  · cases h

theorem kernel_under : (Kernel.checkExport nqn blockPath portalIP portalPort options).Under (Answers σ)
      (Seen (KernelIntact σ nqn blockPath portalIP portalPort)) := by
  have hother : ∀ {err : Err}, err.kind = .other → err.kind ≠ .observation := by
    rintro err h
    rw [h]
    decide
  refine Under.bind (under_op ?_)
  rintro r rfl
  dsimp only
  split
  · rename_i err herr
    exact hother (Distort.Options.kind_of_validate herr)
  split
  · rename_i err herr
    exact hother (kind_of_kernelAddressFamily herr)
  rename_i addressFamily hfamily
  refine Under.check ((checkValues_under _).mono fun r hvalues => ?_)
  rcases r with err | _
  · exact hvalues
  refine Under.check (under_op fun r hdirs => ?_)
  rcases r with err | namespaces
  · have hkind := kind_of_reads (show Reads (σ.dirs _) _ from hdirs)
    exact hkind
  dsimp only
  by_cases hone : namespaces = [str "1"]
  · rw [if_neg (not_not.2 hone)]
    refine Under.bind (kernelLinkMatches_under.mono fun linked hlinked => ?_)
    cases linked with
    | false => exact (show Kind.other ≠ .observation by decide)
    | true =>
      exact ⟨addressFamily, hfamily, fun v hv => hvalues v (StdLib.mem_mapOrder.2 hv), hone ▸ reads_ok.1 hdirs, hlinked rfl⟩
  · rw [if_pos hone]
    exact (show Kind.other ≠ .observation by decide)

end

/-- **A check whose reads all answer finds every fault.** -/
theorem check_under (b : Backend) {σ : Target} {nqn blockPath portalIP : Str} {portalPort : ℤ} {options : Options}
    (hσ : b = .spdk → Visible σ nqn blockPath options) :
    (b.check nqn blockPath portalIP portalPort options).Under (Answers σ)
      (Seen (Intact b σ nqn blockPath portalIP portalPort)) := by
  cases b with
  | spdk => exact spdk_under (hσ rfl)
  | kernel => exact kernel_under

/-! ### The check of an export in a pass -/

/-- The health check of a partition, announced or not. -/
def lookAt (shown b : Backend) (p : NVMePartition) (portalIP : Str) : Proc (Except Err Unit) :=
  (if b = shown then announced b.check else b.check) p.status.nqn p.status.backendVolumeID portalIP p.status.portalPort
    p.spec.targetOptions

theorem checkExportHealth_eq (shown b : Backend) (p : NVMePartition) (portalIP : Str) :
    checkExportHealth p (targetBackend shown b) portalIP = lookAt shown b p portalIP >>= fun r => .ret (health r) := by
  unfold checkExportHealth lookAt targetBackend
  dsimp only
  congr 1
  funext r
  cases r <;> rfl

/-- What a backend's check asks. -/
def Backend.inspects : Backend → Call → Bool
  | .spdk => Spdk.inspects
  | .kernel => Kernel.inspects

theorem check_only (b : Backend) (nqn blockPath portalIP : Str) (portalPort : ℤ) (options : Options) :
    (b.check nqn blockPath portalIP portalPort options).Only (b.inspects ·) := by
  cases b with
  | spdk => exact Spdk.checkExport_only (fun _ hc => hc) _ _ _ _ _
  | kernel => exact Kernel.checkExport_only (fun _ hc => hc) _ _ _ _ _

theorem lookAt_only (shown b : Backend) (p : NVMePartition) (portalIP : Str) :
    (lookAt shown b p portalIP).Only fun c => b.inspects c = true ∨ b = shown ∧
      c = .plugin (.checkExport p.status.nqn p.status.backendVolumeID portalIP p.status.portalPort p.spec.targetOptions) := by
  have hcheck := (check_only b p.status.nqn p.status.backendVolumeID portalIP p.status.portalPort
    p.spec.targetOptions).mono fun c hc => (Or.inl hc : _ ∨ b = shown ∧
      c = .plugin (.checkExport p.status.nqn p.status.backendVolumeID portalIP p.status.portalPort p.spec.targetOptions))
  unfold lookAt
  split
  · rename_i hb
    exact ⟨.inr ⟨hb, rfl⟩, fun _ => hcheck⟩
  · exact hcheck

theorem lookAt_heeds (shown : Backend) (p : NVMePartition) (portalIP : Str) :
    (lookAt shown .spdk p portalIP).Heeds (fun c r => refused c r = true) fun r => health r = .unobservable := by
  unfold lookAt
  split
  · exact fun r => ⟨(nomatch ·), checkExport_heeds _ _ _ _ _⟩
  · exact checkExport_heeds _ _ _ _ _

omit [StdLib] in
theorem unhealthy_of_fault {r : Except Err Unit} (h : Fault r) : health r = .unhealthy := by
  obtain ⟨err, rfl, hkind⟩ := h
  exact if_neg hkind

theorem lookAt_fails (shown : Backend) (p : NVMePartition) (portalIP : Str) :
    (lookAt shown .kernel p portalIP).Heeds Fails Fault := by
  unfold lookAt
  split
  · exact fun r => ⟨fun h => (nomatch h.1), kernel_heeds _ _ _ _ _⟩
  · exact kernel_heeds _ _ _ _ _

theorem lookAt_invisible {σ : Target} {portalIP : Str}
    (hσ : ¬Visible σ p.status.nqn p.status.backendVolumeID p.spec.targetOptions) :
    (lookAt .spdk .spdk p portalIP).Under (Answers σ) fun r => health r = .unobservable := by
  unfold lookAt
  rw [if_pos rfl]
  exact Under.bind (under_op fun _ _ => invisible_under hσ)

theorem lookAt_under {shown : Backend} {σ : Target} {portalIP : Str}
    (hσ : shown = .spdk → Visible σ p.status.nqn p.status.backendVolumeID p.spec.targetOptions)
    (hfault : ¬ Intact shown σ p.status.nqn p.status.backendVolumeID portalIP p.status.portalPort) :
    (lookAt shown shown p portalIP).Under (Answers σ) fun r => health r = .unhealthy := by
  unfold lookAt
  rw [if_pos rfl]
  refine Under.bind (under_op fun _ _ => (check_under shown hσ).mono fun r hr => ?_)
  cases r with
  | ok _ => exact absurd hr hfault
  | error err => exact if_neg hr

omit [StdLib] in
theorem inspects_of_refused {r : c.Resp} (h : refused c r = true) : Spdk.inspects c = true ∨ Kernel.inspects c = true := by
  unfold refused at h
  split at h <;> first | exact .inl rfl | exact .inr rfl | cases h

omit [StdLib] in
theorem not_unobserved_of_quiet {σ : Target} {r : c.Resp} (h : quiet c = true) : ¬ Unobserved σ c r := by
  rintro ⟨hr, -⟩
  simp only [quiet, Bool.and_eq_true, Bool.not_eq_true'] at h
  rcases inspects_of_refused hr with hc | hc
  · rw [h.1.1] at hc
    cases hc
  · rw [h.1.2] at hc
    cases hc

/-! ### The way to the check -/

section

omit [StdLib]

theorem neutral_of_looksUp (hc : looksUp c = true) : neutral c = true := by
  unfold looksUp at hc
  split at hc <;> trivial

theorem neutral_of_followsAttachment (hc : followsAttachment c = true) : neutral c = true := by
  unfold followsAttachment at hc
  split at hc <;> trivial

theorem not_kernel_of_spdk (hc : Spdk.inspects c = true) : Kernel.inspects c = false := by
  unfold Spdk.inspects at hc
  split at hc <;> first | rfl | cases hc

theorem repairs_of_neutral (hc : neutral c = true) : repairs c = false := by
  simp only [neutral, Bool.and_eq_true, Bool.not_eq_true'] at hc
  exact hc.2

theorem quiet_of_neutral (hc : neutral c = true) : quiet c = true := by
  simp only [neutral, Bool.and_eq_true] at hc
  exact hc.1

theorem quiet_of_looksUp (c : Call) (hc : looksUp c = true) : quiet c = true := quiet_of_neutral (neutral_of_looksUp hc)

end

theorem resolved_cases {shown : Backend} {partition : NVMePartition} {resolved : ResolvedPartitionPlugins}
    (h : resolvePartitionPlugins (plugins shown) partition = .ok resolved) :
    ∃ b vmName, resolved.targetBackend = targetBackend shown b ∧ resolved.volumeManager = .atomic vmName := by
  obtain ⟨hb, hv⟩ := mem_of_resolve h
  simp only [plugins, Plugins.atomic, List.mem_cons, List.not_mem_nil, or_false] at hb hv
  rcases hb with hb | hb <;> rcases hv with hv | hv <;> exact ⟨_, _, hb, hv⟩

theorem quiet_methods {shown b : Backend} {vmName : Str} {resolved : ResolvedPartitionPlugins}
    (hb : resolved.targetBackend = targetBackend shown b) (hv : resolved.volumeManager = .atomic vmName) :
    MethodsOnly (quiet ·) resolved := by
  constructor <;>
    intros <;>
    first | rw [hb] | rw [hv]
  all_goals exact only_op (P := (quiet ·)) rfl

/-- What is left at the check of an export: how it goes on depends on what is seen. -/
inductive AtCheck (shown : Backend) (nodeName : Str) (key : Key) : Proc (Except Err Result) → Prop
  | intro {b : Backend} {vmName portalIP externalID : Str} {allocation : ℤ} {p : NVMePartition}
      {resolved : ResolvedPartitionPlugins} {k : ExportHealth → Proc (Except Err Result)}
      (backend : resolved.targetBackend = targetBackend shown b)
      (volumeManager : resolved.volumeManager = .atomic vmName)
      (unobservable : k .unobservable = done partitionRetryInterval)
      (unhealthy : k .unhealthy = provisionPartition nodeName key p resolved externalID allocation)
      (healthy : (k .healthy).Only (neutral ·)) :
      AtCheck shown nodeName key (lookAt shown b p portalIP >>= fun r => k (health r))

/-- Nothing is repaired before. -/
abbrev ComesToCheck (shown : Backend) (nodeName : Str) (key : Key) : Proc (Except Err Result) → Prop :=
  Arrives (neutral ·) (quiet ·) (AtCheck shown nodeName key)

section arrives

variable {shown b : Backend} {vmName nodeName : Str} {key : Key} {resolved : ResolvedPartitionPlugins}

theorem atCheck_of_health {portalIP externalID : Str} {allocation : ℤ}
    {k : ExportHealth → Proc (Except Err Result)} (hb : resolved.targetBackend = targetBackend shown b)
    (hv : resolved.volumeManager = .atomic vmName) (hunobservable : k .unobservable = done partitionRetryInterval)
    (hunhealthy : k .unhealthy = provisionPartition nodeName key p resolved externalID allocation)
    (hhealthy : (k .healthy).Only (neutral ·)) :
    AtCheck shown nodeName key (checkExportHealth p resolved.targetBackend portalIP >>= k) := by
  rw [hb, checkExportHealth_eq, Prog.bind_assoc]
  exact .intro hb hv hunobservable hunhealthy hhealthy

/-- A partition that is not exported is provisioned; an exported one is looked at. -/
theorem exported_arrives (hb : resolved.targetBackend = targetBackend shown b)
    (hv : resolved.volumeManager = .atomic vmName) (p : NVMePartition) (externalID : Str) (allocation : ℤ) :
    ComesToCheck shown nodeName key
      ((reconcileExportedPartition nodeName p resolved.targetBackend).check fail fun handled =>
        match handled with
        | some result => done result
        | none => provisionPartition nodeName key p resolved externalID allocation) := by
  unfold reconcileExportedPartition
  split
  · exact .only (provisionPartition_only quiet_of_looksUp (fun _ _ => rfl) (fun _ _ _ => rfl) (quiet_methods hb hv) _ _ _ _ _)
  simp only [Prog.check]
  rw [Prog.bind_assoc]
  refine Arrives.bind (rdmaEndpoint_only (fun _ => neutral_of_looksUp) nodeName) fun r => ?_
  rcases r with err | portalIP
  · exact .only trivial
  dsimp only
  rw [Prog.bind_assoc]
  refine .here (atCheck_of_health hb hv rfl rfl ?_)
  have haccess : (reconcileAttachmentAccess p resolved.targetBackend).Only (neutral ·) := by
    refine reconcileAttachmentAccess_only (fun _ => neutral_of_followsAttachment) fun nqn host => ?_
    rw [hb]
    exact only_op (P := (neutral ·)) rfl
  dsimp only
  rw [Prog.bind_assoc]
  refine haccess.bind fun r => ?_
  cases r <;> trivial

theorem live_arrives (hb : resolved.targetBackend = targetBackend shown b)
    (hv : resolved.volumeManager = .atomic vmName) (p : NVMePartition) (externalID volumeID : Str) :
    ComesToCheck shown nodeName key (reconcileLive nodeName key p resolved externalID volumeID) := by
  have hstatus : ∀ {f : NVMePartitionStatus → NVMePartitionStatus} (key : Key),
      (updatePartitionStatus key f).Only (neutral ·) :=
    updatePartitionStatus_only (fun _ => neutral_of_looksUp) fun _ => rfl
  unfold reconcileLive
  split
  · exact .only (recordProvisioningFailure_only quiet_of_looksUp (fun _ _ _ => rfl) p _ _ true)
  split
  · exact .only (recordProvisioningFailure_only quiet_of_looksUp (fun _ _ _ => rfl) p _ _ true)
  refine Arrives.check (verifyProvisioningAuthorization_only (fun _ => neutral_of_looksUp) p)
    (rejectUnauthorizedProvisioning_only quiet_of_looksUp (fun _ _ _ => rfl) p) fun _ => ?_
  refine Arrives.check (hstatus _) only_fail fun _ => ?_
  refine Arrives.check (ensurePartitionIdentityAndFinalizer_only (hstatus _) fun q _ => ?_) only_fail fun p' =>
    exported_arrives hb hv p' externalID _
  unfold addPartitionFinalizer
  split
  · exact only_done q
  · exact only_op (P := (neutral ·)) rfl

end arrives

/-- **A pass that looks at a target comes to the check of an export**, and has repaired nothing before. -/
theorem reconcile_arrives (shown : Backend) (nodeName : Str) (key : Key) :
    ComesToCheck shown nodeName key (reconcile (plugins shown) nodeName key) := by
  refine Arrives.check (only_op (P := (neutral ·)) rfl) (fun err => ?_) fun p => ?_
  · split
    · exact only_done 0
    · exact only_fail err
  split
  · exact .only (only_done 0)
  split
  · exact .only (only_done 0)
  split
  · refine .only ?_
    split
    · exact recordProvisioningFailure_only quiet_of_looksUp (fun _ _ _ => rfl) p _ _ true
    · exact only_fail _
  · rename_i resolved hres
    obtain ⟨b, vmName, hb, hv⟩ := resolved_cases hres
    dsimp only
    split
    · exact .only (reconcilePartitionDeletion_only quiet_of_looksUp (fun _ _ => rfl) (quiet_methods hb hv).deleteVolume
        (fun _ hc => quiet_of_neutral (neutral_of_followsAttachment hc)) (fun _ => rfl) (fun _ _ => rfl) nodeName key p _
        ((quiet_methods hb hv).unexportVolume _))
    · exact live_arrives hb hv p _ _

/-! ### Every pass -/

section runs

variable {shown : Backend} {nodeName : Str} {key : Key} {es : List (Event Call Call.Resp)}
  {q s : Proc (Except Err Result)} {σ : Target}

/-- What follows a look that came to `r`. -/
structure Follows (shown : Backend) (nodeName : Str) (key : Key) (b : Backend) (p : NVMePartition)
    (s q : Proc (Except Err Result)) (r : Except Err Unit) (es₁ es₂ : List (Event Call Call.Resp)) : Prop where
  quiet : ∀ e ∈ es₂, quiet e.1 = true
  unobservable : health r = .unobservable → es₂ = []
  unhealthy : health r = .unhealthy → ∃ resolved externalID allocation,
    resolved.targetBackend = targetBackend shown b ∧
    Leads s es₁ (provisionPartition nodeName key p resolved externalID allocation) ∧
    Leads (provisionPartition nodeName key p resolved externalID allocation) es₂ q

/-- A run from the check on: it is still looking, or what comes after depends on what was seen. -/
theorem AtCheck.leads (hs : AtCheck shown nodeName key s) (h : Leads s es q) :
    ∃ b p portalIP, ((∃ rest, Leads (lookAt shown b p portalIP) es rest) ∧ ∀ r, q ≠ .ret r) ∨
      ∃ r es1 es2, es = es1 ++ es2 ∧ Leads (lookAt shown b p portalIP) es1 (.ret r) ∧
        Follows shown nodeName key b p s q r es1 es2 := by
  obtain @⟨b, vmName, portalIP, externalID, allocation, p, resolved, k, hb, hv, hunobservable, hunhealthy, hhealthy⟩ := hs
  refine ⟨b, p, portalIP, ?_⟩
  -- the look is over
  have hafter : ∀ r es1 es2, Leads (lookAt shown b p portalIP) es1 (.ret r) → Leads (k (health r)) es2 q →
      Follows shown nodeName key b p (lookAt shown b p portalIP >>= fun r => k (health r)) q r es1 es2 := by
    intro r es1 es2 h1 h2
    cases hr : health r with
    | unobservable =>
      rw [hr, hunobservable] at h2
      obtain ⟨rfl, -⟩ := h2.ret_inv
      exact ⟨by simp, fun _ => rfl, by simp [hr]⟩
    | healthy =>
      rw [hr] at h2
      exact ⟨h2.only (hhealthy.mono fun c => quiet_of_neutral), by simp [hr], by simp [hr]⟩
    | unhealthy =>
      rw [hr, hunhealthy] at h2
      refine ⟨h2.only (P := (Observation.quiet ·)) ?_, by simp [hr],
        fun _ => ⟨resolved, externalID, allocation, hb, ?_, h2⟩⟩
      · exact provisionPartition_only quiet_of_looksUp (fun _ _ => rfl) (fun _ _ _ => rfl) (quiet_methods hb hv) _ _ _ _ _
      · have hto := h1.bind (f := fun r => k (health r)) (Leads.refl _)
        rw [List.append_nil, hr, hunhealthy] at hto
        exact hto
  rcases h.bind_cases with ⟨rest, hrest, rfl⟩ | ⟨r, es1, es2, rfl, h1, h2⟩
  · cases rest with
    | ret r => exact .inr ⟨r, es, [], (List.append_nil es).symm, hrest, hafter r es [] hrest (.refl _)⟩
    | call c k => exact .inl ⟨⟨_, hrest⟩, fun r hr => nomatch hr⟩
  · exact .inr ⟨r, es1, es2, rfl, h1, hafter r es1 es2 h1 h2⟩

variable {b : Backend}

theorem lookAt_idle {portalIP : Str} {rest : Proc (Except Err Unit)}
    (h : Leads (lookAt shown b p portalIP) es rest) : ∀ e ∈ es, repairs e.1 = false := by
  refine h.only (P := fun c => repairs c = false) ((lookAt_only shown b p portalIP).mono fun c hc => ?_)
  rcases hc with hc | ⟨-, rfl⟩
  · cases b with
    | spdk =>
      simp only [Backend.inspects, Spdk.inspects] at hc
      split at hc <;> trivial
    | kernel =>
      simp only [Backend.inspects, Kernel.inspects] at hc
      split at hc <;> trivial
  · rfl

theorem unobservable_of_unobserved {portalIP : Str} {r : Except Err Unit}
    (h : Leads (lookAt shown b p portalIP) es (.ret r))
    (hkernel : ∀ e ∈ es, Kernel.inspects e.1 = true → ¬ Unobserved σ e.1 e.2)
    (hfailed : ∃ e ∈ es, Unobserved σ e.1 e.2) : health r = .unobservable := by
  obtain ⟨e, he, hunobserved⟩ := hfailed
  cases b with
  | spdk => exact h.heeds (lookAt_heeds shown p portalIP) ⟨e, he, hunobserved.1⟩
  | kernel =>
    rcases h.only (lookAt_only shown .kernel p portalIP) e he with hc | ⟨-, hc⟩
    · exact absurd hunobserved (hkernel e he hc)
    obtain ⟨c, r⟩ := e
    cases hc
    exact absurd hunobserved.1 Bool.false_ne_true

/-- The pass goes on to provision the partition anew. -/
def GoesOn (shown : Backend) (nodeName : Str) (key : Key) (es : List (Event Call Call.Resp)) (r : Except Err Result) :
    Prop :=
  ∃ es₁ es₂ p resolved externalID allocation, es = es₁ ++ es₂ ∧ resolved.targetBackend = targetBackend shown shown ∧
    Leads (reconcile (plugins shown) nodeName key) es₁ (provisionPartition nodeName key p resolved externalID allocation) ∧
    Leads (provisionPartition nodeName key p resolved externalID allocation) es₂ (.ret r)

/-- A pass with a call of a check: what is before and after the check, and what follows from its result. -/
theorem checked (hrun : Leads (reconcile (plugins shown) nodeName key) es q) {e : Event Call Call.Resp} (he : e ∈ es)
    (hloud : quiet e.1 = false) :
    ∃ b p ip es₁ es₂ es₃, es = es₁ ++ (es₂ ++ es₃) ∧ e ∈ es₂ ∧ (∀ e ∈ es₁, neutral e.1 = true) ∧
      (((∃ rest, Leads (lookAt shown b p ip) es₂ rest) ∧ es₃ = [] ∧ ∀ r, q ≠ .ret r) ∨
      ∃ c, Leads (lookAt shown b p ip) es₂ (.ret c) ∧ (health c = .unobservable → es₃ = []) ∧
        ∀ r, q = .ret r → health c = .unhealthy → b = shown → GoesOn shown nodeName key es r) := by
  have hnot : ∀ {es : List (Event Call Call.Resp)}, (∀ e ∈ es, quiet e.1 = true) → e ∉ es := by
    intro es hes hmem
    rw [hes e hmem] at hloud
    cases hloud
  rcases (reconcile_arrives shown nodeName key).leads (fun _ => quiet_of_neutral) hrun with
    hquiet | ⟨es1, es2, s, rfl, hneutral, hs, hto, hrest⟩
  · exact absurd he (hnot hquiet)
  have he2 := (List.mem_append.1 he).resolve_left (hnot fun e he => quiet_of_neutral (hneutral e he))
  obtain ⟨b, p, ip, ⟨hlook, hstill⟩ | ⟨c, es3, es4, rfl, hcheck, hend⟩⟩ := hs.leads hrest
  · exact ⟨b, p, ip, es1, es2, [], by rw [List.append_nil], he2, hneutral, .inl ⟨hlook, rfl, hstill⟩⟩
  refine ⟨b, p, ip, es1, es3, es4, rfl, (List.mem_append.1 he2).resolve_right (hnot hend.quiet), hneutral,
    .inr ⟨c, hcheck, hend.unobservable, ?_⟩⟩
  rintro r rfl hunhealthy rfl
  obtain ⟨resolved, externalID, allocation, hresolved, hto', hfrom⟩ := hend.unhealthy hunhealthy
  exact ⟨es1 ++ es3, es4, p, resolved, externalID, allocation, (List.append_assoc ..).symm, hresolved, hto.trans hto', hfrom⟩

theorem idle_of_look {ip : Str} {rest : Proc (Except Err Unit)}
    {es₁ es₂ : List (Event Call Call.Resp)} (hneutral : ∀ e ∈ es₁, neutral e.1 = true)
    (hlook : Leads (lookAt shown b p ip) es₂ rest) : ∀ e ∈ es₁ ++ (es₂ ++ []), repairs e.1 = false := by
  intro e he
  rw [List.append_nil] at he
  rcases List.mem_append.1 he with he | he
  · exact repairs_of_neutral (hneutral e he)
  · exact lookAt_idle hlook e he

/-- **No repair follows or precedes a read that failed.** -/
theorem idle_of_unobserved (hrun : Leads (reconcile (plugins shown) nodeName key) es q)
    (hkernel : ∀ e ∈ es, Kernel.inspects e.1 = true → ¬ Unobserved σ e.1 e.2)
    (hfailed : ∃ e ∈ es, Unobserved σ e.1 e.2) : ∀ e ∈ es, repairs e.1 = false := by
  obtain ⟨e, he, hunobserved⟩ := hfailed
  have hloud : quiet e.1 = false := Bool.eq_false_iff.2 fun hq => not_unobserved_of_quiet hq hunobserved
  obtain ⟨b, p, ip, es1, es2, es3, rfl, he2, hneutral, ⟨⟨rest, hlook⟩, rfl, -⟩ | ⟨c, hlook, hend, -⟩⟩ :=
    checked hrun he hloud
  · exact idle_of_look hneutral hlook
  · rw [hend (unobservable_of_unobserved hlook
      (fun e he => hkernel e (List.mem_append_right _ (List.mem_append_left _ he))) ⟨e, he2, hunobserved⟩)]
    exact idle_of_look hneutral hlook

/-- What was announced are the arguments of the check. -/
theorem announced_args {ip nqn blockPath portalIP : Str} {portalPort : ℤ}
    {options : Options} {a c : Except Err Unit} (h : Leads (lookAt shown b p ip) es (.ret c))
    (hlook : ⟨.plugin (.checkExport nqn blockPath portalIP portalPort options), a⟩ ∈ es) :
    b = shown ∧ nqn = p.status.nqn ∧ blockPath = p.status.backendVolumeID ∧ portalIP = ip ∧
      portalPort = p.status.portalPort ∧ options = p.spec.targetOptions := by
  obtain ⟨rfl, hargs⟩ : b = shown ∧ _ := (h.only (lookAt_only shown b p ip) _ hlook).resolve_left (by cases b <;> nofun)
  cases hargs
  exact ⟨rfl, rfl, rfl, rfl, rfl, rfl⟩

/-- **Observation failures and faults are told apart, or not.**

* A pass in which a read failed repairs nothing, unless it is a read of the kernel's check.
* A pass in which a read of the kernel's check failed goes on to repair.
* A pass whose reads all answered goes on to repair a target with a fault, unless SPDK cannot be looked at; then it
  repairs nothing. -/
theorem told_apart (hrun : Leads (reconcile (plugins shown) nodeName key) es q) :
    ((∀ e ∈ es, Kernel.inspects e.1 = true → ¬ Unobserved σ e.1 e.2) →
      (∃ e ∈ es, Unobserved σ e.1 e.2) → ∀ e ∈ es, repairs e.1 = false) ∧
    (∀ r : Except Err Result, q = .ret r → shown = .kernel → (∀ e ∈ es, Plain e.1 e.2) →
      (∃ e ∈ es, Kernel.inspects e.1 = true ∧ Unobserved σ e.1 e.2) → GoesOn shown nodeName key es r) ∧
    ∀ (r : Except Err Result) (nqn blockPath portalIP : Str) (portalPort : ℤ) (options : Options) (a : Except Err Unit),
      q = .ret r → ⟨.plugin (.checkExport nqn blockPath portalIP portalPort options), a⟩ ∈ es →
      (∀ e ∈ es, Answers σ e.1 e.2) → ¬ Intact shown σ nqn blockPath portalIP portalPort →
      ((shown = .spdk → Visible σ nqn blockPath options) → GoesOn shown nodeName key es r) ∧
      (shown = .spdk → ¬ Visible σ nqn blockPath options → ∀ e ∈ es, repairs e.1 = false) := by
  refine ⟨idle_of_unobserved hrun, ?_, ?_⟩
  · rintro r hq rfl hplain ⟨e, he, hkernel, hunobserved⟩
    have hloud : quiet e.1 = false := by simp [quiet, hkernel]
    obtain ⟨b, p, ip, es1, es2, es3, rfl, he2, -, ⟨-, -, hstill⟩ | ⟨c, hcheck, -, hrepair⟩⟩ := checked hrun he hloud
    · exact absurd hq (hstill r)
    -- the check of SPDK makes no such read
    have hb : b = .kernel := by
      cases b with
      | kernel => rfl
      | spdk =>
        rcases hcheck.only (lookAt_only .kernel .spdk p ip) e he2 with hspdk | ⟨hne, -⟩
        · rw [not_kernel_of_spdk hspdk] at hkernel
          cases hkernel
        · cases hne
    subst hb
    have hmem : ∀ e ∈ es2, Plain e.1 e.2 := fun e he => hplain e (List.mem_append_right _ (List.mem_append_left _ he))
    exact hrepair r hq (unhealthy_of_fault (hcheck.heeds (lookAt_fails _ p ip) ⟨e, he2, hunobserved.1, hmem e he2⟩)) rfl
  · rintro r nqn blockPath portalIP portalPort options a hq hlook hanswers hfault
    obtain ⟨b, p, ip, es1, es2, es3, rfl, hlook2, hneutral, ⟨-, -, hstill⟩ | ⟨c, hcheck, hend, hrepair⟩⟩ :=
      checked hrun hlook rfl
    · exact absurd hq (hstill r)
    obtain ⟨rfl, rfl, rfl, rfl, rfl, rfl⟩ := announced_args hcheck hlook2
    have hmem : ∀ e ∈ es2, Answers σ e.1 e.2 :=
      fun e he => hanswers e (List.mem_append_right _ (List.mem_append_left _ he))
    refine ⟨fun hσ => hrepair r hq (hcheck.under hmem (lookAt_under hσ hfault)) rfl, ?_⟩
    rintro rfl hσ
    rw [hend (hcheck.under hmem (lookAt_invisible hσ))]
    exact idle_of_look hneutral hcheck

end runs

end

/-! ### Runs -/

section

attribute [local instance] asciiLib

open Manager (volumeKey)

variable (b : Backend)

/-- A partition that is exported. -/
def exported : NVMePartition where
  metadata := { ns := "ns", name := "vol", uid := "u1", generation := 1, finalizers := [partitionFinalizer] }
  spec := {
    size := 4194304, nodeName := "n1", parentDeviceSerialNumber := "s1", claimRef := some Manager.sampleRef
    targetBackend := b.name }
  status := {
    state := .exported, externalID := "e1", volumeID := "h1", backendVolumeID := "v1", nqn := "q1", portalPort := 4420 }

/-- What else is read is as it should be; the check has the answers that are given. -/
def replies (seen : (c : Call) → Option c.Resp) : (c : Call) → Option c.Resp
  | .api (.get .partition _ _) => some (.ok (exported b))
  | .api (.patchStatus .partition _ obj) => some (.ok obj)
  | .plugin (.setupDevice _ _ _) => some (.error (.errorf "no device" []))
  | c => (seen c).or (Manager.sampleReplies c)

/-- The calls of a pass. -/
def pass (seen : (c : Call) → Option c.Resp) : List (Event Call Call.Resp) :=
  (reconcile (plugins b) "n1" volumeKey).follow (fun _ => replies b seen) 40 0

def passEnd (seen : (c : Call) → Option c.Resp) : Proc (Except Err Result) :=
  (reconcile (plugins b) "n1" volumeKey).leftover (fun _ => replies b seen) 40 0

theorem leads_pass (seen : (c : Call) → Option c.Resp) :
    Leads (reconcile (plugins b) "n1" volumeKey) (pass b seen) (passEnd b seen) :=
  leads_follow _ _ _ _

/-- Answers of the check that are those of a target state make the pass one that sees it. -/
theorem answers_pass {b : Backend} {seen : (c : Call) → Option c.Resp} {σ : Target}
    (h : ∀ c r, seen c = some r → Answers σ c r) : ∀ e ∈ pass b seen, Answers σ e.1 e.2 := by
  intro e he
  obtain ⟨c, r⟩ := e
  obtain ⟨-, hr⟩ := mem_follow he
  simp only [replies] at hr
  split at hr
  · trivial
  · trivial
  · trivial
  rcases hseen : seen c with _ | answer
  · rw [hseen, Option.none_or] at hr
    unfold Manager.sampleReplies at hr
    split at hr <;> trivial
  · rw [hseen] at hr
    exact h c r (hseen.trans hr)

/-- SPDK does not list its subsystems. -/
def unlisted : (c : Call) → Option c.Resp
  | .node .inspectSPDKProcess => some (.ok none)
  | .node (.startSPDKProcess _) => some (.ok ())
  | .rpc .nvmfGetSubsystems => some (.error (.errorf "timeout" []))
  | _ => none

/-- There is nothing in the configuration file system. -/
def bare : (c : Call) → Option c.Resp
  | .proc .ctxErr => some none
  | .fs (.readFile _) => some (.error ⟨.notFound, "no such file"⟩)
  | _ => none

theorem answers_bare : ∀ e ∈ pass .kernel bare, Answers {} e.1 e.2 := by
  refine answers_pass fun c r h => ?_
  unfold bare at h
  split at h <;> cases h
  · exact rfl
  · exact rfl

theorem mem_pass {b : Backend} {seen : (c : Call) → Option c.Resp} {i : ℕ} {e : Event Call Call.Resp}
    (h : (pass b seen)[i]? = some e) : e ∈ pass b seen :=
  List.mem_of_getElem? h

theorem exists_ret (seen : (c : Call) → Option c.Resp) (h : (passEnd b seen).result.isSome = true) :
    ∃ r, passEnd b seen = .ret r := by
  obtain ⟨r, hr⟩ := Option.isSome_iff_exists.1 h
  exact ⟨r, eq_ret hr⟩

/-- A pass for SPDK whose list of subsystems is not answered, and one for the kernel that finds nothing. -/
theorem told_apart_bare :
    ((∃ e ∈ pass .spdk unlisted, Unobserved {} e.1 e.2) ∧ ∀ e ∈ pass .spdk unlisted, repairs e.1 = false) ∧
    ∃ r, GoesOn .kernel "n1" volumeKey (pass .kernel bare) r := by
  constructor
  · have hfailed : ∃ e ∈ pass .spdk unlisted, Unobserved {} e.1 e.2 :=
      ⟨_, mem_pass (i := 10) (e := ⟨.rpc .nvmfGetSubsystems, .error (.errorf "timeout" [])⟩) rfl, rfl, nofun⟩
    have hkernel : (pass .spdk unlisted).all fun e => !Kernel.inspects e.1 := by decide +kernel
    refine ⟨hfailed, (told_apart (leads_pass .spdk unlisted)).1 (fun e he hc => ?_) hfailed⟩
    have hnot := List.all_eq_true.1 hkernel e he
    rw [hc] at hnot
    cases hnot
  · obtain ⟨r, hr⟩ := exists_ret .kernel bare (by decide +kernel)
    refine ⟨r, ((told_apart (leads_pass .kernel bare)).2.2 r "q1" "v1" "10.0.0.1" 4420 [] (.ok ()) hr
      (mem_pass (i := 7) rfl) answers_bare ?_).1 nofun⟩
    rintro ⟨addressFamily, -, hfiles, -⟩
    cases hfiles _ (List.mem_cons_self ..)

/-- A file of the configuration file system cannot be read. -/
def unreadable : (c : Call) → Option c.Resp
  | .proc .ctxErr => some none
  | .fs (.readFile _) => some (.error (.errorf "input/output error" []))
  | _ => none

/-- A subsystem whose volume SPDK does not know. -/
def orphaned : Target where
  process := some (str "0x1")
  subsystems := [{ nqn := "q1", allowAnyHost := false, hosts := [] }]

/-- The answers of that target. -/
def orphan : (c : Call) → Option c.Resp
  | .node .inspectSPDKProcess => some (.ok (some (str "0x1")))
  | .node .waitForSPDKRPC => some (.ok ())
  | .rpc .nvmfGetSubsystems => some (.ok orphaned.subsystems)
  | .rpc (.bdevGetBdevs (some _)) => some (.error (.errorf "No such device" []))
  | _ => none

theorem answers_orphan : ∀ e ∈ pass .spdk orphan, Answers orphaned e.1 e.2 := by
  refine answers_pass fun c r h => ?_
  unfold orphan at h
  split at h <;> cases h <;> trivial

/-- A file that the kernel backend cannot read makes it set up the device of an export anew, and a subsystem whose
volume is gone is left as it is. -/
theorem confused : (∃ (σ : Target) (es : List (Event Call Call.Resp)) (q : Proc (Except Err Result)),
      Leads (reconcile (plugins .kernel) "n1" volumeKey) es q ∧ (∃ e ∈ es, Unobserved σ e.1 e.2) ∧
      ∃ e ∈ es, repairs e.1 = true) ∧
    ∃ (σ : Target) (es : List (Event Call Call.Resp)) (r : Except Err Result) (nqn blockPath portalIP : Str)
      (portalPort : ℤ) (options : Options) (a : Except Err Unit),
      Leads (reconcile (plugins .spdk) "n1" volumeKey) es (.ret r) ∧
      ⟨.plugin (.checkExport nqn blockPath portalIP portalPort options), a⟩ ∈ es ∧ (∀ e ∈ es, Answers σ e.1 e.2) ∧
      ¬ Intact .spdk σ nqn blockPath portalIP portalPort ∧ ∀ e ∈ es, repairs e.1 = false := by
  constructor
  · refine ⟨{ files := fun _ => some (str "0") }, _, _, leads_pass .kernel unreadable, ?_, ?_⟩
    · exact ⟨_, mem_pass (i := 9)
        (e := ⟨.fs (.readFile (Kernel.allowAnyPath "q1")), .error (.errorf "input/output error" [])⟩) rfl, rfl, nofun⟩
    · exact List.any_eq_true.1 (by decide +kernel : (pass .kernel unreadable).any fun e => repairs e.1)
  · obtain ⟨r, hr⟩ := exists_ret .spdk orphan (by decide +kernel)
    have hidle : (pass .spdk orphan).all fun e => !repairs e.1 := by decide +kernel
    refine ⟨orphaned, _, r, "q1", "v1", "10.0.0.1", 4420, [], .ok (), hr ▸ leads_pass .spdk orphan,
      mem_pass (i := 7) rfl, answers_orphan, ?_, fun e he => ?_⟩
    · rintro ⟨s, -, hbdevs, -⟩
      exact hbdevs rfl
    · simpa using List.all_eq_true.1 hidle e he

end

end Distort.Agent.Observation
