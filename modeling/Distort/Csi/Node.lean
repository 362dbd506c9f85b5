import Distort.Csi.Attach
import Distort.Csi.MountInfo
import Distort.Health

/-!
The CSI node plugin: `node_server.go` and `nvme.go`, as far as volumes are staged and unstaged.

What the plugin asks the node for is a type of calls of its own (`HostCall`).  A command runs under the context of the
request or under the one that the rollback makes for itself.  The loop of `unmount` has no bound of its own and takes the
number of rounds it may still go; waiting for a device ends with a timer, after at most `polls` ticks.

The options of commands that are always the same, the hooks of the tests and the messages that are logged are left out.
-/

namespace Distort.Csi

open Go Lib

/-! ### Calls -/

/-- The context that a command runs under: the request's, or a fresh one with a timeout that the rollback makes. -/
inductive Ctx where
  | request | cleanup
  deriving DecidableEq

/-- A command that did not succeed: what it printed, its exit code if it got that far, and the error. -/
structure Failure where
  output : Str
  exitCode : Option ℤ := none
  err : Err

/-- A path of an entry of `nvme list-subsys`. -/
structure NVMePath where
  name : Str
  state : Str

structure NVMESubsystem where
  nqn : Str
  paths : List NVMePath

/-- An entry of `NVMEHostList`. -/
structure NVMEHost where
  subsystems : List NVMESubsystem

inductive HostCall where
  | ctxErr (ctx : Ctx)
  | select
  | stat (path : Str)
  | mkdirAll (path : Str)
  | remove (path : Str)
  | readMountInfo
  /-- The major and minor number of a block device. -/
  | deviceNumber (path : Str)
  /-- `nvme list-subsys -o json`, with what `json.Unmarshal` makes of the output. -/
  | nvmeListSubsys (ctx : Ctx)
  | nvmeConnect (ctx : Ctx) (portalIP portalPort nqn hostNQN : Str)
  | nvmeDisconnect (ctx : Ctx) (nqn : Str)
  /-- `blkid -p -s TYPE -o value`. -/
  | blkid (ctx : Ctx) (source : Str)
  | mkfs (ctx : Ctx) (command : Str) (args : List Str)
  | mount (ctx : Ctx) (fsType source target : Str)
  | umount (ctx : Ctx) (target : Str)
  /-- A loop without a bound that is still going round. -/
  | forever

abbrev HostCall.Resp : HostCall → Type
  | .ctxErr _ => Option Err
  | .select => Tick
  | .stat _ | .mkdirAll _ | .remove _ => Except Err Unit
  | .readMountInfo | .deviceNumber _ => Except Err Str
  | .nvmeListSubsys _ => Except Failure (Except Err (List NVMEHost))
  | .blkid _ _ => Except Failure Str
  | .nvmeConnect _ _ _ _ _ | .nvmeDisconnect _ _ | .mkfs _ _ _ | .mount _ _ _ _ | .umount _ _ => Except Failure Unit
  | .forever => Empty

/-- A function of the node plugin. -/
abbrev HostProc (α : Type) : Type := Prog HostCall HostCall.Resp α

namespace HostProc

def op (c : HostCall) : HostProc c.Resp := .call c .ret

def fail {ε α : Type} (err : ε) : HostProc (Except ε α) := .ret (.error err)

def done {ε α : Type} (a : α) : HostProc (Except ε α) := .ret (.ok a)

/-- What a failed command is reported as: the error of the context if that is done. -/
def interruptedOr {ε α : Type} (ctx : Ctx) (interrupted : Err → ε) (k : HostProc (Except ε α)) : HostProc (Except ε α) :=
  op (.ctxErr ctx) >>= fun err =>
  match err with
  | some err => fail (interrupted err)
  | none => k

end HostProc

open HostProc

/-! ### Connections -/

def deviceByNQN (list : Except Err (List NVMEHost)) (nqn : Str) : Except Err Str :=
  match list with
  | .error err => .error (.errorf "failed to parse nvme list-subsys JSON: %v" [.str err.text])
  | .ok list =>
    let paths := (list.flatMap NVMEHost.subsystems).flatMap fun s => if s.nqn = nqn then s.paths else []
    match paths.find? fun p => p.state = str "live" && p.name ≠ [] with
    | some p => .ok (str "/dev/" ++ p.name ++ str "n1")
    | none => .error (.errorf "device for NQN %s not found" [.str nqn])

def getDeviceByNQN (ctx : Ctx) (nqn : Str) : HostProc (Except Err Str) :=
  (op (.nvmeListSubsys ctx)).check
    (fun f => interruptedOr ctx (fun err => .wrapf "nvme list-subsys interrupted: %w" [] err) <|
      fail (.errorf "nvme list-subsys failed: %v, output: %s" [.str f.err.text, .str f.output])) fun list =>
  .ret (deviceByNQN list nqn)

/-- `ConnectRDMA`: whether the connection is to be taken back with the stage, also where there is an error. -/
def connectRDMA (ctx : Ctx) (nqn portalIP portalPort hostNQN : Str) : HostProc (Except (Bool × Err) Bool) :=
  getDeviceByNQN ctx nqn >>= fun device =>
  match device with
  | .ok _ => done false
  | .error _ =>
    interruptedOr ctx (fun err => (false, .wrapf "inspect existing NVMe connection: %w" [] err)) <|
    (op (.nvmeConnect ctx portalIP portalPort nqn hostNQN)).check
      (fun f =>
        -- the command may have reached the target before the cancellation
        interruptedOr ctx (fun err => (true, .wrapf "nvme connect interrupted: %w" [] err)) <|
        if contains f.output "already connected" then done false
        else
          getDeviceByNQN ctx nqn >>= fun device =>
          match device with
          | .ok _ => done false
          | .error _ => fail (true, .errorf "nvme connect failed: %v, output: %s" [.str f.err.text, .str f.output]))
      fun _ => done true

def disconnectRDMA (ctx : Ctx) (nqn : Str) : HostProc (Except Err Unit) :=
  (op (.nvmeDisconnect ctx nqn)).check
    (fun f => interruptedOr ctx (fun err => .wrapf "nvme disconnect interrupted: %w" [] err) <|
      if contains f.output "no controllers found" then done ()
      else fail (.errorf "nvme disconnect failed: %v, output: %s" [.str f.err.text, .str f.output])) fun _ =>
  done ()

/-! ### Mounts -/

section mounts

variable [StdLib]

/-- `verifyStagingMount`: whether something is mounted at the target, which has to be the device then. -/
def verifyStagingMount (source target filesystem : Str) : HostProc (Except Err Bool) :=
  op .readMountInfo >>= fun data =>
  match mountAt data target with
  | .error err => fail err
  | .ok none => done false
  | .ok (some record) =>
    (op (.deviceNumber source)).check
      (fun err => fail (.wrapf "inspect expected block device %s: %w" [.str source] err)) fun expectedDevice =>
    if record.majorMinor ≠ expectedDevice then
      fail (.errorf "target %s is mounted from device %s (%s), expected %s (%s)"
        [.str target, .str record.source, .str record.majorMinor, .str source, .str expectedDevice])
    else if normalizeFilesystem record.filesystem ≠ filesystem then
      fail (.errorf "target %s uses filesystem %s, expected %s" [.str target, .str record.filesystem, .str filesystem])
    else if record.options.contains (str "ro") then fail (.errorf "staging target %s is read-only" [.str target])
    else done true

/-- One round of `unmount`; `again` is the next one. -/
def unmountOnce (ctx : Ctx) (target : Str) (again : HostProc (Except Err Unit)) : HostProc (Except Err Unit) :=
  interruptedOr ctx (fun err => .wrapf "unmount interrupted: %w" [] err) <|
  op .readMountInfo >>= fun data =>
  match mountAt data target with
  | .error err => fail (.wrapf "checking mount point: %w" [] err)
  | .ok none => done ()
  | .ok (some _) =>
    (op (.umount ctx target)).check
      (fun f => interruptedOr ctx (fun err => .wrapf "unmount interrupted: %w" [] err) <|
        if contains f.output "not mounted" || contains f.output "no mount point specified" then done ()
        else fail (.errorf "unmount failed: %v, output: %s" [.str f.err.text, .str f.output])) fun _ =>
    again

/-- `unmount`: everything that is mounted at the target goes. -/
def unmount (ctx : Ctx) (target : Str) : ℕ → HostProc (Except Err Unit)
  | 0 => .call .forever nofun
  | rounds + 1 => unmountOnce ctx target (unmount ctx target rounds)

/-! ### Filesystems -/

/-- An error of the mount step: the two kinds that are reported as failed preconditions, and all others. -/
inductive StageErr where
  | filesystemMismatch (text : Str)
  | mountMismatch (text : Str)
  | other (err : Err)

def probeFilesystem (ctx : Ctx) (source : Str) : HostProc (Except Err Str) :=
  (op (.blkid ctx source)).check
    (fun f => interruptedOr ctx (fun err => .wrapf "blkid interrupted: %w" [] err) <|
      if f.exitCode = some 2 then done []
      else
        fail ⟨f.err.kind, sprintf "blkid failed: %w, output: %s" [.str f.err.text, .str (trimSpace f.output)]⟩) fun out =>
  done (normalizeFilesystem out)

def filesystemFormatCommand (source fsType : Str) : Except Err (Str × List Str) :=
  if fsType = defaultFilesystem then .ok ("mkfs.ext4", [str "-F", source])
  else if fsType = str "xfs" then .ok ("mkfs.xfs", [str "-f", source])
  else .error (.errorf "unsupported filesystem %q" [.str fsType])

def formatFilesystem (ctx : Ctx) (source fsType : Str) : HostProc (Except Err Unit) :=
  match filesystemFormatCommand source fsType with
  | .error err => fail err
  | .ok (command, args) =>
    (op (.mkfs ctx command args)).check
      (fun f => interruptedOr ctx (fun err => .wrapf "formatting interrupted: %w" [] err) <|
        fail ⟨f.err.kind, sprintf "formatting %s as %s failed: %w, output: %s"
          [.str source, .str fsType, .str f.err.text, .str (trimSpace f.output)]⟩) done

def ensureFilesystemContext (ctx : Ctx) (source requested : Str) : HostProc (Except StageErr Unit) :=
  (probeFilesystem ctx source).check
    (fun err => fail (.other (.wrapf "probing filesystem on %s: %w" [.str source] err))) fun detected =>
  if detected = [] then (formatFilesystem ctx source requested).check (fun err => fail (.other err)) done
  else if normalizeFilesystem detected ≠ requested then
    fail (.filesystemMismatch (sprintf "Block device %s contains %s, but %s was requested; refusing to format or mount it"
      [.str source, .str detected, .str requested]))
  else done ()

/-- `formatAndMount`: whether it was this call that mounted the device. -/
def formatAndMount (rounds : ℕ) (ctx : Ctx) (source target fsType : Str) : HostProc (Except StageErr Bool) :=
  (op (.mkdirAll target)).check (fun err => fail (.other err)) fun _ =>
  (verifyStagingMount source target fsType).check (fun err => fail (.mountMismatch err.text)) fun mounted =>
  if mounted then done false
  else
    (ensureFilesystemContext ctx source fsType).check fail fun _ =>
    (op (.mount ctx fsType source target)).check
      (fun f => interruptedOr ctx (fun err => .other (.wrapf "mount interrupted: %w" [] err)) <|
        fail (.other (.errorf "mount failed: %v, output: %s" [.str f.err.text, .str f.output]))) fun _ =>
    verifyStagingMount source target fsType >>= fun mounted =>
    match mounted with
    | .ok true => done true
    | .ok false =>
      unmount ctx target rounds >>= fun _ =>
      fail (.mountMismatch "target is not mounted after mount command succeeded")
    | .error err => unmount ctx target rounds >>= fun _ => fail (.mountMismatch err.text)

/-! ### Requests -/

def publishContextNodeID : Str := "attachedNodeID"
def publishContextHostNQN : Str := "hostNQN"
def publishContextAttachmentID : Str := "attachmentID"

structure NodeStageRequest where
  volumeID : Str
  stagingTargetPath : Str
  volumeCapability : Option VolumeCapability
  volumeContext : Params
  publishContext : Params

/-- `validatedNodeStageRequest`. -/
structure ValidatedNodeStageRequest where
  volumeID : Str
  stagingTargetPath : Str
  nqn : Str
  portalIP : Str
  portalPort : Str
  hostNQN : Str
  filesystem : Str

omit [StdLib] in
def validateNodePath (field : String) (path : Str) : Except Status Str :=
  if path = [] then .error (.errorf .invalidArgument "%s must be provided" [.str field])
  else if path.contains 0 || path.head? ≠ some 47 then
    .error (.errorf .invalidArgument "%s must be an absolute path" [.str field])
  else if clean path = str "/" then .error (.errorf .invalidArgument "%s must not be the filesystem root" [.str field])
  else if clean path ≠ path then .error (.errorf .invalidArgument "%s must be canonical" [.str field])
  else .ok path

/-- An entry of a context, without the blanks around it. -/
def contextValue (context : Params) (key : Str) : Str := trimSpace ((context.lookup key).getD [])

def validateNodeStageRequest (nodeID : Str) (req : NodeStageRequest) : Except Status ValidatedNodeStageRequest := do
  if req.volumeID = [] then throw ⟨.invalidArgument, "Volume ID must be provided"⟩
  let stagingTargetPath ← validateNodePath "Staging target path" req.stagingTargetPath
  let capability ←
    match validateVolumeCapabilities req.volumeContext [req.volumeCapability] with
    | .error err => throw (.errorf .invalidArgument "Invalid volume capability: %v" [.str err.text])
    | .ok capability => pure capability
  let nqn := contextValue req.volumeContext "nqn"
  let portalIP := contextValue req.volumeContext "portalIP"
  let portalPort := contextValue req.volumeContext "portalPort"
  if nqn = [] then throw ⟨.invalidArgument, "Volume context NQN must be provided"⟩
  if !(Health.parseUsableIP portalIP).isOk then
    throw (.errorf .invalidArgument "Volume context portalIP %q is not a usable remote IP" [.str portalIP])
  let port ←
    match (parseInt portalPort).filter fun port => 1 ≤ port && port ≤ 65535 with
    | none => throw (.errorf .invalidArgument "Volume context portalPort %q is invalid" [.str portalPort])
    | some port => pure port
  let attachedNodeID := contextValue req.publishContext publishContextNodeID
  let hostNQN := contextValue req.publishContext publishContextHostNQN
  let attachmentID := contextValue req.publishContext publishContextAttachmentID
  if nodeID = [] ∨ attachedNodeID ≠ nodeID then
    throw (.errorf .failedPrecondition "Volume attachment belongs to node %q, not this node %q"
      [.str attachedNodeID, .str nodeID])
  if attachmentID = [] ∨ hostNQN ≠ hostNQNForNode nodeID then
    throw ⟨.failedPrecondition, "Volume attachment authorization is missing or invalid"⟩
  return { volumeID := req.volumeID, stagingTargetPath, nqn, portalIP, portalPort := itoa port, hostNQN,
           filesystem := capability.filesystem }

omit [StdLib] in
/-- The status of an operation that failed: that of the context if it is done. -/
def nodeOperationError (message : Str) (err : Str) : HostProc Status :=
  op (.ctxErr .request) >>= fun done =>
  .ret (match done with
    | some err => .fromContextError err
    | none => ⟨.internal, message ++ str ": " ++ err⟩)

/-! ### Staging -/

section

omit [StdLib]

/-- One round of `waitForDevice`; `again` is the next one. -/
def waitForDeviceOnce (path : Str) (again : HostProc (Except Err Unit)) : HostProc (Except Err Unit) :=
  op (.stat path) >>= fun info =>
  match info with
  | .ok _ => done ()
  | .error err =>
    if !err.isNotFound then fail err
    else
      op .select >>= fun tick =>
      match tick with
      | .done err => fail err
      | .timer => fail (.errorf "timed out waiting for %s" [.str path])
      | .ticker => again

def waitForDevice (path : Str) : ℕ → HostProc (Except Err Unit)
  | 0 => waitForDeviceOnce path (fail (.errorf "timed out waiting for %s" [.str path]))
  | polls + 1 => waitForDeviceOnce path (waitForDevice path polls)

/-- Takes back what the call made of the connection and the directory. -/
def takeBack (stage : ValidatedNodeStageRequest) (createdConnection createdDirectory : Bool) : HostProc Unit :=
  (if createdConnection then disconnectRDMA .cleanup stage.nqn >>= fun _ => .ret () else .ret () : HostProc Unit) >>= fun _ =>
  if createdDirectory then op (.remove stage.stagingTargetPath) >>= fun _ => .ret () else .ret ()

end

/-- The deferred rollback. -/
def rollback (rounds : ℕ) (stage : ValidatedNodeStageRequest) (mountedByCall createdConnection createdDirectory : Bool) :
    HostProc Unit :=
  (if mountedByCall then unmount .cleanup stage.stagingTargetPath rounds >>= fun _ => .ret () else .ret () : HostProc Unit)
    >>= fun _ =>
  takeBack stage createdConnection createdDirectory

/-- What comes after the connection is there; an error is returned after the rollback. -/
def stageConnected (polls rounds : ℕ) (stage : ValidatedNodeStageRequest) (createdConnection createdDirectory : Bool) :
    HostProc (Except Status Unit) :=
  let giveUp (status : Status) : HostProc (Except Status Unit) :=
    rollback rounds stage false createdConnection createdDirectory >>= fun _ => fail status
  getDeviceByNQN .request stage.nqn >>= fun device =>
  match device with
  | .error err =>
    nodeOperationError (sprintf "Failed to locate block device for NQN %s" [.str stage.nqn]) err.text >>= giveUp
  | .ok devPath =>
    waitForDevice devPath polls >>= fun appeared =>
    match appeared with
    | .error err => nodeOperationError (sprintf "Block device %s did not appear" [.str devPath]) err.text >>= giveUp
    | .ok _ =>
      formatAndMount rounds .request devPath stage.stagingTargetPath stage.filesystem >>= fun mounted =>
      -- the mount is taken back only if the step that made it reports it together with an error, which it never does
      match mounted with
      | .error (.filesystemMismatch text) | .error (.mountMismatch text) => giveUp ⟨.failedPrecondition, text⟩
      | .error (.other err) => nodeOperationError "Failed to format and mount" err.text >>= giveUp
      | .ok _ => done ()

/-- `NodeStageVolume`, after the request was validated. -/
def stageVolume (polls rounds : ℕ) (stage : ValidatedNodeStageRequest) : HostProc (Except Status Unit) :=
  let connect (createdDirectory : Bool) : HostProc (Except Status Unit) :=
    connectRDMA .request stage.nqn stage.portalIP stage.portalPort stage.hostNQN >>= fun connected =>
    match connected with
    | .error (createdConnection, err) =>
      takeBack stage createdConnection createdDirectory >>= fun _ =>
      nodeOperationError "Failed to connect to NVMe-oF target" err.text >>= fail
    | .ok createdConnection => stageConnected polls rounds stage createdConnection createdDirectory
  op (.stat stage.stagingTargetPath) >>= fun info =>
  match info with
  | .ok _ => connect false
  | .error err =>
    if !err.isNotFound then fail (.errorf .internal "Failed to inspect staging target path: %v" [.str err.text])
    else
      (op (.mkdirAll stage.stagingTargetPath)).check
        (fun err => fail (.errorf .internal "Failed to create staging target path: %v" [.str err.text])) fun _ =>
      connect true

def nodeStageVolume (polls rounds : ℕ) (nodeID : Str) (req : NodeStageRequest) : HostProc (Except Status Unit) :=
  match validateNodeStageRequest nodeID req with
  | .error status => fail status
  | .ok stage => stageVolume polls rounds stage

/-! ### Unstaging -/

structure NodeUnstageRequest where
  volumeID : Str
  stagingTargetPath : Str

omit [StdLib] in
/-- The target that a volume was connected to; a handle of the old format is the external ID itself. -/
def unstageNQN (volumeID : Str) : Except Status Str :=
  match Distort.VolumeIdentity.parseVolumeHandle volumeID with
  | .error _ => .ok (Distort.VolumeIdentity.nqn volumeID)
  | .ok reference =>
    match Distort.VolumeIdentity.new reference.ns reference.name reference.uid with
    | .error err => .error (.errorf .invalidArgument "Invalid volume identity: %v" [.str err.text])
    | .ok identity => .ok (Distort.VolumeIdentity.nqn identity.externalID)

def nodeUnstageVolume (rounds : ℕ) (req : NodeUnstageRequest) : HostProc (Except Status Unit) :=
  if req.volumeID = [] then fail ⟨.invalidArgument, "Volume ID must be provided"⟩
  else
    match validateNodePath "Staging target path" req.stagingTargetPath with
    | .error status => fail status
    | .ok stagingTargetPath =>
      (unmount .request stagingTargetPath rounds).check
        (fun err => fail (.errorf .internal "Failed to unmount staging path: %v" [.str err.text])) fun _ =>
      match unstageNQN req.volumeID with
      | .error status => fail status
      | .ok nqn =>
        (disconnectRDMA .request nqn).check
          (fun err => fail (.errorf .internal "Failed to disconnect NVMe target: %v" [.str err.text])) done

end mounts

section samples

attribute [local instance] asciiLib

/-- A volume with ext4 is to be staged at `/s`. -/
def staged : NodeStageRequest where
  volumeID := "v"
  stagingTargetPath := "/s"
  volumeCapability := some ⟨some ⟨"ext4", []⟩, some .singleNodeWriter⟩
  volumeContext := [("nqn", "q"), ("portalIP", "10.0.0.1"), ("portalPort", "4420")]
  publishContext := [("attachedNodeID", "n1"), ("hostNQN", hostNQNForNode "n1"), ("attachmentID", "a")]

end samples

end Distort.Csi
