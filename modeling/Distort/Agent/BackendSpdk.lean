import Distort.Agent.HostAccess
import Distort.Identity
import Distort.Options

/-!
The SPDK target backend: `backend_spdk.go`.

The target process is started and supervised by calls to the node (`NodeCall`); its mutexes are left
out, because the passes of one agent run one after the other.
-/

namespace Distort.Agent.Spdk

open Go Lib Proc

variable [StdLib]

/-! ### The target process -/

def lowerHexDigit (b : UInt8) : UInt8 := if 65 ≤ b ∧ b ≤ 70 then b + 32 else b

/-- `canonicalSPDKCoreMask`: the value of the mask, without leading zeros and in lower case. -/
def canonicalSPDKCoreMask (coreMask : Str) : Except Err Str := do
  let coreMask := if coreMask = [] then str "0x1" else coreMask
  Options.validateSPDKCoreMask coreMask
  return str "0x" ++ ((coreMask.drop 2).dropWhile (· = 48)).map lowerHexDigit

def ensureSPDKRunning (coreMask : Str) : Proc (Except Err Unit) :=
  match canonicalSPDKCoreMask coreMask with
  | .error err => fail err
  | .ok requestedMask =>
    (node .inspectSPDKProcess).check fail fun process =>
    match process with
    | some runningMask =>
      if runningMask ≠ requestedMask then
        fail (.errorf "running nvmf_tgt uses core mask %s, requested %s" [.str runningMask, .str requestedMask])
      else node .waitForSPDKRPC
    | none => node (.startSPDKProcess requestedMask)

def coreMaskOption (options : Options) : Str := (options.lookup Options.spdkCoreMaskOption).getD []

/-! ### Devices -/

def isNVMeControllerAttached (deviceName : Str) : Proc (Except Err Bool) :=
  (rpc .bdevNvmeGetControllers).check fail fun controllers => done (controllers.contains deviceName)

/-- Goes on unless the controller is known to be attached. -/
def unlessAttached (deviceName : Str) (k : Proc (Except Err Unit)) : Proc (Except Err Unit) :=
  isNVMeControllerAttached deviceName >>= fun attached =>
  match attached with
  | .ok true => done ()
  | _ => k

def attachController (pciAddress deviceName : Str) : Proc (Except Err Unit) :=
  (rpc (.bdevNvmeAttachController deviceName pciAddress)).check
    -- an earlier call that timed out may have completed on the server
    (fun err => unlessAttached deviceName
      (fail (.wrapf "failed to attach NVMe %s to SPDK: %w" [.str pciAddress] err))) done

def setupDevice (pciAddress deviceName : Str) (options : Options) : Proc (Except Err Unit) :=
  match Options.validate "spdk" options with
  | .error err => fail err
  | .ok _ =>
    (ensureSPDKRunning (coreMaskOption options)).check fail fun _ =>
    unlessAttached deviceName <|
    unlessAttached deviceName <|
    (node (.runSPDKSetup pciAddress)).check fail fun _ =>
    attachController pciAddress deviceName

/-! ### Exports -/

/-- `strconv.ParseUint(s, 10, 32)`. -/
def parseUint32 (s : Str) : Option ℕ :=
  if s ≠ [] ∧ s.all (fun b => 48 ≤ b && b ≤ 57) then
    let n := s.foldl (fun n b => n * 10 + (b.toNat - 48)) 0
    if n < 4294967296 then some n else none
  else none

def spdkNVMfTransportArgs : Proc (Except Err (List Str)) :=
  let args : List Str := ["-t", "RDMA", "-u", "8192", "-i", "131072", "-c", "8192"]
  node (.getenv "SPDK_NVMF_MAX_SRQ_DEPTH") >>= fun maxSRQDepth =>
  if maxSRQDepth = [] then done args
  else
    match parseUint32 maxSRQDepth with
    | some (_ + 1) => done (args ++ [str "-s", maxSRQDepth])
    | _ => fail (.errorf "SPDK_NVMF_MAX_SRQ_DEPTH must be a positive integer, got %q" [.str maxSRQDepth])

def ensureNVMeTransport : Proc (Except Err Unit) :=
  spdkNVMfTransportArgs.check fail fun args =>
  (rpc .nvmfGetTransports).check
    (fun err => fail (.wrapf "failed to list SPDK NVMe-oF transports: %w" [] err)) fun transports =>
  if transports.any fun trtype => equalFold trtype "RDMA" then done ()
  else
    (rpc (.nvmfCreateTransport args)).check
      (fun err => fail (.wrapf "failed to create SPDK RDMA transport: %w" [] err)) done

/-- `spdkBdevIdentities`: all names of the bdev, or nothing if there is none. -/
def spdkBdevIdentities (blockPath : Str) : Proc (Except Err (Option (List Str))) :=
  (rpc (.bdevGetBdevs (some blockPath))).check
    (fun err => fail (.wrapf "resolve SPDK backing bdev %s: %w" [.str blockPath] err)) fun bdevs =>
  if bdevs = [] then done none
  else
    done (some ((blockPath :: bdevs.flatMap fun b => b.name :: b.uuid :: b.aliases).filter fun name => name ≠ []))

def findSubsystem (nqn : Str) : Proc (Except Err (Option Subsystem)) :=
  (rpc .nvmfGetSubsystems).check fail fun subsystems => done (subsystems.find? fun s => s.nqn = nqn)

inductive ExportState where
  | healthy | missing | mismatch | observationUnavailable
  deriving DecidableEq

/-- `spdkExportInspection`; the detail of a healthy export is empty. -/
structure ExportInspection where
  state : ExportState
  detail : Err := ⟨.other, []⟩

def namespaceMatches (subsystem : Subsystem) (identities : List Str) : Bool :=
  subsystem.namespaces.any fun n => identities.contains n.name || identities.contains n.bdevName

def listenerMatches (subsystem : Subsystem) (portalIP : Str) (portalPort : ℤ) : Bool :=
  subsystem.listenAddresses.any fun l =>
    equalFold l.trtype "RDMA" && l.traddr = portalIP && l.trsvcid = itoa portalPort

def inspectExport (nqn blockPath portalIP : Str) (portalPort : ℤ) (options : Options) : Proc ExportInspection :=
  let unavailable (err : Err) : Proc ExportInspection := .ret ⟨.observationUnavailable, err⟩
  (ensureSPDKRunning (coreMaskOption options)).check unavailable fun _ =>
  (findSubsystem nqn).check (fun err => unavailable (.wrapf "list SPDK subsystems: %w" [] err)) fun found =>
  match found with
  | none => .ret ⟨.missing, .errorf "SPDK subsystem %s is missing" [.str nqn]⟩
  | some subsystem =>
    (spdkBdevIdentities blockPath).check unavailable fun found =>
    match found with
    | none => .ret ⟨.mismatch, .errorf "SPDK backing bdev %s is missing" [.str blockPath]⟩
    | some identities =>
      if !namespaceMatches subsystem identities then
        .ret ⟨.mismatch, .errorf "SPDK subsystem %s does not use backing bdev %s" [.str nqn, .str blockPath]⟩
      else if !listenerMatches subsystem portalIP portalPort then
        .ret ⟨.mismatch, .errorf "SPDK subsystem %s has no RDMA listener on %s:%d"
          [.str nqn, .str portalIP, .int portalPort]⟩
      else .ret { state := .healthy }

/-- An `ExportObservationError` around an error. -/
def observationError (detail : Err) : Err := ⟨.observation, detail.text⟩

def checkExport : CheckExport := fun nqn blockPath portalIP portalPort options =>
  inspectExport nqn blockPath portalIP portalPort options >>= fun inspection =>
  match inspection.state with
  | .healthy => done ()
  | .observationUnavailable => fail (observationError inspection.detail)
  | _ => fail inspection.detail

/-- Takes back a subsystem that could not be completed. -/
def abandon (nqn : Str) (err : Err) : Proc (Except Err Str) :=
  rpc (.nvmfDeleteSubsystem nqn) >>= fun _ => fail err

def createExport (nqn blockPath portalIP : Str) (portalPort : ℤ) : Proc (Except Err Str) :=
  ensureNVMeTransport.check fail fun _ =>
  (rpc (.nvmfCreateSubsystem nqn)).check
    (fun err => fail (.wrapf "failed to create SPDK subsystem %s: %w" [.str nqn] err)) fun _ =>
  (rpc (.nvmfSubsystemAddNs nqn blockPath)).check
    (fun err => abandon nqn (.wrapf "failed to add namespace %s to subsystem: %w" [.str blockPath] err)) fun _ =>
  (rpc (.nvmfSubsystemAddListener nqn portalIP portalPort)).check
    (fun err => abandon nqn (.wrapf "failed to add RDMA listener to subsystem: %w" [] err)) fun _ =>
  done nqn

def exportVolume (volumeName blockPath portalIP : Str) (portalPort : ℤ) (options : Options) : Proc (Except Err Str) :=
  let nqn := Distort.VolumeIdentity.nqn volumeName
  inspectExport nqn blockPath portalIP portalPort options >>= fun inspection =>
  match inspection.state with
  | .healthy => done nqn
  | .observationUnavailable => fail (observationError inspection.detail)
  | .mismatch =>
    (rpc (.nvmfDeleteSubsystem nqn)).check
      (fun err => fail (.wrapf "replace unhealthy SPDK subsystem %s: %w" [.str nqn] err)) fun _ =>
    createExport nqn blockPath portalIP portalPort
  | .missing => createExport nqn blockPath portalIP portalPort

def subsystemExists (nqn : Str) : Proc (Except Err Bool) :=
  (rpc .nvmfGetSubsystems).check
    (fun err => fail (.wrapf "failed to list SPDK NVMe-oF subsystems: %w" [] err)) fun subsystems =>
  done (subsystems.any fun s => s.nqn = nqn)

def unexportVolume (nqn : Str) : Proc (Except Err Unit) :=
  (subsystemExists nqn).check fail fun found =>
  if !found then done ()
  else
    rpc (.nvmfDeleteSubsystem nqn) >>= fun deleted =>
    (subsystemExists nqn).check
      (fun err => fail (.wrapf "verify SPDK subsystem %s absence: %w" [.str nqn] err)) fun found =>
    if !found then done ()
    else
      match deleted with
      | .error err => fail (.wrapf "failed to delete SPDK subsystem %s: %w" [.str nqn] err)
      | .ok _ => fail (.errorf "SPDK subsystem %s still exists after deletion" [.str nqn])

/-- `SPDKBackend`. -/
def backend : TargetBackend where
  name := "spdk"
  setupDevice := setupDevice
  exportVolume := exportVolume
  unexportVolume := unexportVolume
  reconcileHostAccess := reconcileHostAccess
  checkExport := some checkExport

/-! ### What is asked for -/

omit [StdLib] in
/-- What a look at an export takes: reads, and the start of a target that does not run. -/
def inspects : Call → Bool
  | .node .inspectSPDKProcess | .node .waitForSPDKRPC | .node (.startSPDKProcess _) => true
  | .rpc .nvmfGetSubsystems | .rpc (.bdevGetBdevs _) => true
  | _ => false

section only

variable {P : Call → Prop} (hP : ∀ c, inspects c = true → P c)
include hP

omit [StdLib] in
theorem ensureSPDKRunning_only (coreMask : Str) : (ensureSPDKRunning coreMask).Only P := by
  unfold ensureSPDKRunning
  split
  · exact only_fail _
  refine .next (only_op (hP _ rfl)) fun process => ?_
  cases process with
  | none => exact only_op (hP _ rfl)
  | some runningMask =>
    dsimp only
    split
    · exact only_fail _
    · exact only_op (hP _ rfl)

theorem inspectExport_only (nqn blockPath portalIP : Str) (portalPort : ℤ) (options : Options) :
    (inspectExport nqn blockPath portalIP portalPort options).Only P := by
  have hfind : (findSubsystem nqn).Only P := Prog.Only.next (only_op (hP _ rfl)) fun _ => only_done _
  have hbdev : (spdkBdevIdentities blockPath).Only P := by
    refine .next (only_op (hP _ rfl)) fun bdevs => ?_
    split <;> exact only_done _
  refine (ensureSPDKRunning_only hP _).next fun _ => hfind.next fun found => ?_
  cases found with
  | none => trivial
  | some subsystem =>
    refine hbdev.next fun identities => ?_
    cases identities with
    | none => trivial
    | some identities =>
      dsimp only
      split
      · trivial
      · split <;> trivial

theorem checkExport_only (nqn blockPath portalIP : Str) (portalPort : ℤ) (options : Options) :
    (checkExport nqn blockPath portalIP portalPort options).Only P := by
  refine (inspectExport_only hP _ _ _ _ _).bind fun inspection => ?_
  split
  · exact only_done ()
  · exact only_fail _
  · exact only_fail _

end only

end Distort.Agent.Spdk
