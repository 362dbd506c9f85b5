import Distort.Lib.Prog
import Distort.Api.Types

/-!
Everything the code asks the outside for, and the programs that ask one thing.

A function of the source that talks to the API server, to SPDK, to the file system of the kernel
target or to its own runtime is a program over these calls (`Proc`); each call is one step, and
others may act between any two of them.  What a call does is said where a system is put together.
-/

namespace Distort

open Go Lib Lib.Kube Api

/-! ### The API server -/

inductive Resource where
  | partition | attachment | device | claim | node
  deriving DecidableEq

abbrev Resource.Obj : Resource → Type
  | .partition => NVMePartition
  | .attachment => NVMeVolumeAttachment
  | .device => NVMeDevice
  | .claim => NVMeDeviceClaim
  | .node => RDMAStorageNode

/-- Where a read is served from: the server, or the informer cache of the process. -/
inductive Reader where
  | api | cache
  deriving DecidableEq

/-- A request to the API server.  A deletion and a patch carry the objects that the caller holds;
the server uses their names, and of a patch the difference. -/
inductive ApiCall where
  | get (r : Resource) (via : Reader) (key : Key)
  | list (r : Resource) (via : Reader)
  | create (r : Resource) (obj : r.Obj)
  | update (r : Resource) (obj : r.Obj)
  | patch (r : Resource) (base obj : r.Obj)
  | patchStatus (r : Resource) (base obj : r.Obj)
  | delete (r : Resource) (obj : r.Obj)

abbrev ApiCall.Resp : ApiCall → Type
  | .get r _ _ => Except Err r.Obj
  | .list r _ => Except Err (List r.Obj)
  | .create r _ => Except Err r.Obj
  | .update r _ => Except Err r.Obj
  | .patch r _ _ => Except Err r.Obj
  | .patchStatus r _ _ => Except Err r.Obj
  | .delete _ _ => Except Err Unit

/-! ### The process -/

/-- What a `select` over the context, a timer and a ticker goes on with. -/
inductive Tick where
  | done (err : Err)
  | timer
  | ticker

inductive ProcCall where
  | ctxErr
  | select
  | now
  | newUUID
  | lock (name : Str)
  | unlock (name : Str)
  /-- A loop without a bound that is still going round. -/
  | forever

abbrev ProcCall.Resp : ProcCall → Type
  | .ctxErr => Option Err
  | .select => Tick
  | .now => ℤ
  | .newUUID => Str
  | .lock _ => Unit
  | .unlock _ => Unit
  | .forever => Empty

/-! ### SPDK -/

/-- A namespace of a subsystem. -/
structure Namespace where
  name : Str
  bdevName : Str

/-- An address that a subsystem listens on. -/
structure ListenAddress where
  trtype : Str
  traddr : Str
  trsvcid : Str

/-- An entry of `nvmf_get_subsystems`. -/
structure Subsystem where
  nqn : Str
  allowAnyHost : Bool
  hosts : List Str
  namespaces : List Namespace := []
  listenAddresses : List ListenAddress := []

/-- An entry of `bdev_lvol_get_lvstores`. -/
structure Lvstore where
  uuid : Str
  name : Str
  baseBdev : Str
  deriving DecidableEq

/-- An entry of `bdev_get_bdevs`; `lvol` is the UUID of the store of a logical volume. -/
structure Bdev where
  name : Str
  uuid : Str
  aliases : List Str
  blockSize : ℕ
  numBlocks : ℕ
  lvol : Option Str
  deriving DecidableEq

inductive Rpc where
  | nvmfGetSubsystems
  | nvmfSubsystemAllowAnyHost (nqn : Str)
  | nvmfSubsystemRemoveHost (nqn host : Str)
  | nvmfSubsystemAddHost (nqn host : Str)
  | nvmfCreateSubsystem (nqn : Str)
  | nvmfSubsystemAddNs (nqn bdev : Str)
  | nvmfSubsystemAddListener (nqn traddr : Str) (trsvcid : ℤ)
  | nvmfDeleteSubsystem (nqn : Str)
  | nvmfGetTransports
  | nvmfCreateTransport (args : List Str)
  | bdevNvmeGetControllers
  | bdevNvmeAttachController (name pciAddress : Str)
  /-- All bdevs, or those that a name stands for. -/
  | bdevGetBdevs (name : Option Str)
  | bdevLvolGetLvstores
  | bdevLvolCreateLvstore (bdev name : Str)
  | bdevLvolCreate (lvstore name : Str) (sizeMiB : ℤ)
  | bdevLvolDelete (name : Str)

abbrev Rpc.Resp : Rpc → Type
  | .nvmfGetSubsystems => Except Err (List Subsystem)
  | .nvmfGetTransports => Except Err (List Str)
  | .bdevNvmeGetControllers => Except Err (List Str)
  | .bdevGetBdevs _ => Except Err (List Bdev)
  | .bdevLvolGetLvstores => Except Err (List Lvstore)
  | .bdevLvolCreate _ _ _ => Except Err Str
  | _ => Except Err Unit

/-! ### The node -/

/-- `HardwareNVMe`: what discovery reports of a drive. -/
structure HardwareNVMe where
  name : Str
  pciAddress : Str
  serialNumber : Str
  totalBytes : ℤ

/-- What the agent does to the node it runs on. -/
inductive NodeCall where
  | discoverNVMe
  /-- The canonical core mask of the running `nvmf_tgt`, if it runs. -/
  | inspectSPDKProcess
  | waitForSPDKRPC
  /-- Starts `nvmf_tgt`, configures it and waits until it answers. -/
  | startSPDKProcess (coreMask : Str)
  /-- `setup.sh`: binds a drive to the user-space driver. -/
  | runSPDKSetup (pciAddress : Str)
  /-- `setup.sh reset`: binds a drive to the kernel driver. -/
  | resetSPDKDevice (pciAddress : Str)
  | getenv (name : Str)
  /-- `modprobe`. -/
  | loadModule (name : Str)
  /-- Whether `/sys/kernel/config` is a mount point. -/
  | configFSMounted
  | mountConfigFS

abbrev NodeCall.Resp : NodeCall → Type
  -- what was found in spite of an error is returned with it
  | .discoverNVMe => Except (List HardwareNVMe × Err) (List HardwareNVMe)
  | .inspectSPDKProcess => Except Err (Option Str)
  | .waitForSPDKRPC => Except Err Unit
  | .startSPDKProcess _ => Except Err Unit
  | .runSPDKSetup _ => Except Err Unit
  | .resetSPDKDevice _ => Except Err Unit
  | .getenv _ => Str
  | .loadModule _ => Except Err Unit
  | .configFSMounted => Bool
  | .mountConfigFS => Except Err Unit

/-! ### The configuration file system of the kernel target -/

/-- A path under `/sys/kernel/config/nvmet`, component by component. -/
abbrev Path : Type := List Str

inductive FsCall where
  | readFile (path : Path)
  | writeFile (path : Path) (data : Str)
  | readDir (path : Path)
  | readlink (path : Path)
  | stat (path : Path)
  /-- Whether the path is a symbolic link. -/
  | lstat (path : Path)
  | remove (path : Path)
  | mkdir (path : Path)
  | mkdirAll (path : Path)
  | symlink (target path : Path)

abbrev FsCall.Resp : FsCall → Type
  | .readFile _ => Except Err Str
  | .writeFile _ _ => Except Err Unit
  | .readDir _ => Except Err (List Str)
  | .readlink _ => Except Err Path
  | .stat _ => Except Err Unit
  | .lstat _ => Except Err Bool
  | .remove _ => Except Err Unit
  | .mkdir _ => Except Err Unit
  | .mkdirAll _ => Except Err Unit
  | .symlink _ _ => Except Err Unit

/-! ### Partition tables -/

/-- The commands on a block device; a command that fails has printed something too. -/
inductive DiskCall where
  /-- `parted` with these arguments. -/
  | parted (args : List Str)
  /-- `wipefs -a`. -/
  | wipefs (devicePath : Str)
  | stat (path : Str)

abbrev DiskCall.Resp : DiskCall → Type
  | .parted _ => Except (Str × Err) Str
  | .wipefs _ => Except (Str × Err) Str
  | .stat _ => Except Err Unit

/-! ### The storage plugins -/

namespace Agent

/-- A `map[string]string` of backend options. -/
abbrev Options : Type := List (Str × Str)

/-- `plugins.VolumeIdentity`: what addresses one carved volume. -/
structure VolumeIdentity where
  backendVolumeID : Str := []
  capacityBytes : ℤ := 0
  baseBdev : Str := []
  volumeStoreName : Str := []
  volumeStoreUUID : Str := []
  volumeName : Str := []
  volumeUUID : Str := []
  deriving DecidableEq

end Agent

/-- A call of a plugin as one step, where it does not matter how the plugin goes about it. -/
inductive PluginCall where
  | setupDevice (pciAddress deviceName : Str) (options : Agent.Options)
  | exportVolume (volumeName blockPath portalIP : Str) (portalPort : ℤ) (options : Agent.Options)
  | unexportVolume (nqn : Str)
  | reconcileHostAccess (nqn hostNQN : Str)
  | checkExport (nqn blockPath portalIP : Str) (portalPort : ℤ) (options : Agent.Options)
  | setupStorage (devicePath deviceName : Str)
  | createVolume (devicePath deviceName volumeName : Str) (sizeBytes : ℤ)
  | deleteVolume (devicePath deviceName volumeName : Str) (identity : Agent.VolumeIdentity)

abbrev PluginCall.Resp : PluginCall → Type
  | .exportVolume _ _ _ _ _ => Except Err Str
  | .createVolume _ _ _ _ => Except Err Agent.VolumeIdentity
  | _ => Except Err Unit

/-! ### Programs -/

inductive Call where
  | api (c : ApiCall)
  | proc (c : ProcCall)
  | rpc (c : Rpc)
  | node (c : NodeCall)
  | fs (c : FsCall)
  | plugin (c : PluginCall)
  | disk (c : DiskCall)

abbrev Call.Resp : Call → Type
  | .api c => c.Resp
  | .proc c => c.Resp
  | .rpc c => c.Resp
  | .node c => c.Resp
  | .fs c => c.Resp
  | .plugin c => c.Resp
  | .disk c => c.Resp

/-- A function of the source, as a program over the calls. -/
abbrev Proc (α : Type) : Type := Prog Call Call.Resp α

namespace Proc

def get (r : Resource) (via : Reader) (key : Key) : Proc (Except Err r.Obj) := .call (.api (.get r via key)) .ret
def list (r : Resource) (via : Reader) : Proc (Except Err (List r.Obj)) := .call (.api (.list r via)) .ret
def create (r : Resource) (obj : r.Obj) : Proc (Except Err r.Obj) := .call (.api (.create r obj)) .ret
def update (r : Resource) (obj : r.Obj) : Proc (Except Err r.Obj) := .call (.api (.update r obj)) .ret
def patch (r : Resource) (base obj : r.Obj) : Proc (Except Err r.Obj) := .call (.api (.patch r base obj)) .ret
def patchStatus (r : Resource) (base obj : r.Obj) : Proc (Except Err r.Obj) :=
  .call (.api (.patchStatus r base obj)) .ret
def delete (r : Resource) (obj : r.Obj) : Proc (Except Err Unit) := .call (.api (.delete r obj)) .ret

def ctxErr : Proc (Option Err) := .call (.proc .ctxErr) .ret
def select : Proc Tick := .call (.proc .select) .ret
def now : Proc ℤ := .call (.proc .now) .ret
def newUUID : Proc Str := .call (.proc .newUUID) .ret
def lock (name : Str) : Proc Unit := .call (.proc (.lock name)) .ret
def unlock (name : Str) : Proc Unit := .call (.proc (.unlock name)) .ret

/-- Never returns. -/
def forever {α : Type} : Proc α := .call (.proc .forever) nofun

def rpc (c : Rpc) : Proc c.Resp := .call (.rpc c) .ret
def node (c : NodeCall) : Proc c.Resp := .call (.node c) .ret
def fs (c : FsCall) : Proc c.Resp := .call (.fs c) .ret
def plugin (c : PluginCall) : Proc c.Resp := .call (.plugin c) .ret
def disk (c : DiskCall) : Proc c.Resp := .call (.disk c) .ret

/-- Returns an error. -/
def fail {ε α : Type} (err : ε) : Proc (Except ε α) := .ret (.error err)

/-- Returns without an error. -/
def done {ε α : Type} (a : α) : Proc (Except ε α) := .ret (.ok a)

/-- A missing object is no error: `client.IgnoreNotFound`. -/
def ignoringNotFound (p : Proc (Except Err Unit)) : Proc (Except Err Unit) :=
  p.check (fun err => .ret err.ignoreNotFound) done

section only

variable {P : Call → Prop} {ε α : Type}

theorem only_fail (err : ε) : (fail err : Proc (Except ε α)).Only P := trivial

theorem only_done (a : α) : (done a : Proc (Except ε α)).Only P := trivial

theorem only_op {c : Call} (hc : P c) : (.call c .ret : Proc c.Resp).Only P := ⟨hc, fun _ => trivial⟩

end only

end Proc

end Distort
