import Distort.Agent.BackendSpdk
import Distort.Agent.PartitionManager
import Distort.Agent.SpdkLvol
import Distort.Lib.Feed
import Distort.Lib.Machine

/-!
The partitions of one node, from their creation to their end: the objects, the drives, and the agent
that works on both.

The agent makes one pass after the other, each for one partition, and may die between any two calls;
it reads through a cache that lags behind but never goes back.  Others create partitions, delete them
and write what is not the agent's.  `nvmf_tgt` may be restarted at any time: then no controller is
attached any more, while the logical volumes stay on their drives.

No name is used twice, so that the UID behind a name is fixed, and so is the drive that the partition
of this name is placed on if it is placed.  What the claims, the devices, the storage nodes and the
attachments are is left open.
-/

namespace Distort.Lifecycle

open Go Lib Lib.Kube Api Agent

variable [StdLib]

/-! ### Drives -/

/-- A drive of the node; its controller is always attached under the same name. -/
structure Drive where
  controller : Str
  pciAddress : Str
  serialNumber : Str
  numBlocks : ℕ := 0

/-- The bdev of its namespace. -/
def Drive.bdev (d : Drive) : Str := d.controller ++ str "n1"

structure Lvol where
  name : Str
  uuid : Str
  numBlocks : ℕ

structure LvolStore where
  uuid : Str
  name : Str
  lvols : List Lvol

/-- The state of a drive: only whether it is attached is lost with the target. -/
structure Medium where
  attached : Bool := false
  store : Option LvolStore := none

/-! ### What is fixed -/

structure Setting where
  plugins : Plugins
  nodeName : Str
  /-- The UID of the partition that has the name. -/
  uid : Key → Str
  /-- Whether the plugins are those of SPDK, and work on the drives. -/
  spdk : Bool
  hardware : List Drive
  /-- The serial number of the drive that the partition is placed on, if it is. -/
  parent : Key → Str
  nodeName_ne : nodeName ≠ []
  uid_ne : ∀ key, uid key ≠ []
  parent_ne : ∀ key, parent key ≠ []
  distinct : ∀ d ∈ hardware, ∀ d' ∈ hardware, equalFold d.serialNumber d'.serialNumber → d = d'

variable (s : Setting)

namespace Setting

/-- The external ID that is derived from the object of this name. -/
def externalID (key : Key) : Str :=
  match Distort.VolumeIdentity.new key.ns key.name (s.uid key) with
  | .ok identity => identity.externalID
  | .error _ => []

/-- With volumes on drives, a placement is complete and never another one. -/
def fits (key : Key) (spec : NVMePartitionSpec) : Bool :=
  !s.spdk || (spec.nodeName = [] && spec.parentDeviceSerialNumber = []) ||
    spec.parentDeviceSerialNumber = s.parent key

/-- The drive is the one that the partition is placed on. -/
def isParent (key : Key) (d : Drive) : Bool := equalFold d.serialNumber (s.parent key)

/-- Nothing that is reported under the name of a bdev is another drive. -/
def truthful (r : Except (List HardwareNVMe × Err) (List HardwareNVMe)) : Bool :=
  match r with
  | .error _ => true
  | .ok devices => devices.all fun h => s.hardware.all fun d => h.name ≠ d.bdev || h.serialNumber = d.serialNumber

end Setting

/-! ### The state -/

/-- What is noted in the log. -/
inductive Event where
  /-- The cleanup finalizer was taken off the stored partition, while a volume with its external ID was
  on its drive or was not. -/
  | released (key : Key) (present : Bool)
  deriving DecidableEq

structure World where
  partitions : Key → Feed (Option NVMePartition)
  /-- The names that were used. -/
  created : List Key
  /-- The drives, by their bdev. -/
  media : Str → Medium
  log : List Event

/-- What others do. -/
inductive Change where
  | create (key : Key) (obj : NVMePartition)
  | delete (key : Key)
  /-- Any write that leaves alone what is the agent's. -/
  | write (key : Key) (obj : NVMePartition)
  /-- The target dies. -/
  | restart
  /-- A drive is set up for another partition. -/
  | attach (bdev : Str)

/-- Everything that the state does not determine. -/
structure Choice where
  fate : Fate := .ok
  /-- How many versions a read of the cache skips. -/
  skip : ℕ := 0
  uuid : Str := []
  /-- The answer to a call that is about something else. -/
  reply : (c : Call) → Option c.Resp := fun _ => none
  change : Change := .restart

variable (w : World)

namespace World

/-! ### Requests about the partitions -/

/-- A new version of the partition is stored. -/
def store (key : Key) (v : Option NVMePartition) : World :=
  { w with partitions := Function.update w.partitions key ((w.partitions key).write v) }

def note (e : Event) : World := { w with log := e :: w.log }

/-- The agent is shown a version that is not older than the last one it was shown. -/
def getCached (skip : ℕ) (key : Key) (w : World) : Except Err NVMePartition × World :=
  let shown := (w.partitions key).view skip
  (found shown.1, { w with partitions := Function.update w.partitions key shown.2 })

def patchStatus (base obj : NVMePartition) (w : World) : Except Err NVMePartition × World :=
  match (w.partitions obj.key).cur with
  | none => (.error notFound, w)
  | some p =>
    let p' : NVMePartition := { p with status := .merge base.status obj.status p.status }
    (.ok p', w.store obj.key (some p'))

/-- A volume with the external ID of the partition is on its drive. -/
def onMedia (key : Key) (w : World) : Bool :=
  s.hardware.any fun d => s.isParent key d &&
    (w.media d.bdev).store.any fun st => st.lvols.any fun l => l.name = s.externalID key

def patch (base obj : NVMePartition) (w : World) : Except Err NVMePartition × World :=
  match (w.partitions obj.key).cur with
  | none => (.error notFound, w)
  | some p =>
    let p' := Object.patchFinalizers base obj p
    if !p.finalizersAllowed p'.metadata.finalizers then (.error forbidden, w)
    else if p.containsFinalizer partitionFinalizer && !p'.containsFinalizer partitionFinalizer then
      (.ok p', (w.store obj.key p'.settle).note (.released obj.key (w.onMedia s obj.key)))
    else (.ok p', w.store obj.key p'.settle)

/-- The partition as it is created. -/
def fresh (key : Key) (obj : NVMePartition) : NVMePartition :=
  { obj with
    metadata := { obj.metadata with ns := key.ns, name := key.name, uid := s.uid key, deletionTimestamp := false }
    status := {} }

/-- What a write of others makes of the stored partition. -/
def written (stored obj : NVMePartition) : NVMePartition :=
  { obj with
    metadata := { obj.metadata with
      ns := stored.metadata.ns, name := stored.metadata.name, uid := stored.metadata.uid
      deletionTimestamp := stored.metadata.deletionTimestamp }
    status := { stored.status with
      placementFingerprint := obj.status.placementFingerprint, conditions := obj.status.conditions } }

/-! ### Requests to SPDK -/

def spdkError : Err := ⟨.other, "Invalid parameters"⟩

def setMedium (bdev : Str) (m : Medium) : World := { w with media := Function.update w.media bdev m }

/-- The drives that the target has. -/
def attached : List Drive := s.hardware.filter fun d => (w.media d.bdev).attached

/-- The stores on them. -/
def stores : List (Drive × LvolStore) :=
  (w.attached s).filterMap fun d => (w.media d.bdev).store.map fun st => (d, st)

def namespaceBdev (d : Drive) : Bdev := ⟨d.bdev, [], [], 512, d.numBlocks, none⟩

def lvolBdev (st : LvolStore) (l : Lvol) : Bdev :=
  ⟨l.uuid, l.uuid, [SpdkLvol.lvolAlias st.name l.name], 4096, l.numBlocks, some st.uuid⟩

def bdevs : List Bdev :=
  (w.attached s).map namespaceBdev ++ (w.stores s).flatMap fun x => x.2.lvols.map (lvolBdev x.2)

def attachController (name pciAddress : Str) (w : World) : Except Err Unit × World :=
  match s.hardware.find? fun d => d.controller = name && d.pciAddress = pciAddress with
  | none => (.error spdkError, w)
  | some d =>
    if (w.media d.bdev).attached then (.error spdkError, w)
    else (.ok (), w.setMedium d.bdev { w.media d.bdev with attached := true })

def createLvstore (uuid bdev name : Str) (w : World) : Except Err Unit × World :=
  match (w.attached s).find? fun d => d.bdev = bdev with
  | none => (.error spdkError, w)
  | some d =>
    match (w.media d.bdev).store with
    | some _ => (.error spdkError, w)
    | none => (.ok (), w.setMedium d.bdev { w.media d.bdev with store := some ⟨uuid, name, []⟩ })

def createLvol (uuid lvstore name : Str) (sizeMiB : ℤ) (w : World) : Except Err Str × World :=
  match (w.stores s).find? fun x => x.2.name = lvstore with
  | none => (.error spdkError, w)
  | some (d, st) =>
    if st.lvols.any fun l => l.name = name then (.error spdkError, w)
    else (.ok uuid, w.setMedium d.bdev { w.media d.bdev with
      store := some { st with lvols := st.lvols ++ [⟨name, uuid, sizeMiB.toNat * 256⟩] } })

def deleteLvol (name : Str) (w : World) : Except Err Unit × World :=
  match (w.stores s).find? fun x => x.2.lvols.any fun l => SpdkLvol.named (lvolBdev x.2 l) name with
  | none => (.error spdkError, w)
  | some (d, st) => (.ok (), w.setMedium d.bdev { w.media d.bdev with
      store := some { st with lvols := st.lvols.filter fun l => !SpdkLvol.named (lvolBdev st l) name } })

/-- What SPDK answers about drives and volumes; the subsystems are left open. -/
def rpc (ch : Choice) : (c : Rpc) → World → Option (c.Resp × World)
  | .bdevNvmeGetControllers, w => ch.fate.answerAny w (.ok ((w.attached s).map (·.controller)), w)
  | .bdevNvmeAttachController name pciAddress, w =>
    ch.fate.answerAny w (w.attachController s name pciAddress)
  | .bdevGetBdevs none, w => ch.fate.answerAny w (.ok (w.bdevs s), w)
  | .bdevGetBdevs (some name), w =>
    ch.fate.answerAny w (.ok ((w.bdevs s).filter fun b => SpdkLvol.named b name), w)
  | .bdevLvolGetLvstores, w =>
    ch.fate.answerAny w (.ok ((w.stores s).map fun x => ⟨x.2.uuid, x.2.name, x.1.bdev⟩), w)
  | .bdevLvolCreateLvstore bdev name, w => ch.fate.answerAny w (w.createLvstore s ch.uuid bdev name)
  | .bdevLvolCreate lvstore name sizeMiB, w =>
    ch.fate.answerAny w (w.createLvol s ch.uuid lvstore name sizeMiB)
  | .bdevLvolDelete name, w => ch.fate.answerAny w (w.deleteLvol s name)
  | c, w => (ch.reply (.rpc c)).map fun r => (r, w)

/-! ### Others -/

def change : Change → Option World
  | .create key obj =>
    if key ∉ w.created ∧ key.ns ≠ [] ∧ key.name ≠ [] ∧ s.fits key obj.spec then
      some { w.store key (some (fresh s key obj)) with created := key :: w.created }
    else none
  | .delete key => (w.partitions key).cur.map fun p => w.store key p.delete
  | .write key obj =>
    match (w.partitions key).cur with
    | none => none
    | some p =>
      if s.fits key obj.spec ∧ obj.containsFinalizer partitionFinalizer = p.containsFinalizer partitionFinalizer then
        some (w.store key (written p obj).settle)
      else none
  | .restart => some { w with media := fun bdev => { w.media bdev with attached := false } }
  | .attach bdev => some (w.setMedium bdev { w.media bdev with attached := true })

end World

/-! ### The system -/

def answer (ch : Choice) (_ : Key) : (c : Call) → World → Option (c.Resp × World)
  | .api (.get .partition _ key), w => ch.fate.answerAny w (w.getCached ch.skip key)
  | .api (.patch .partition base obj), w => ch.fate.answerAny w (w.patch s base obj)
  | .api (.patchStatus .partition base obj), w => ch.fate.answerAny w (w.patchStatus base obj)
  | .rpc c, w => w.rpc s ch c
  | .node .discoverNVMe, w => ((ch.reply (.node .discoverNVMe)).filter s.truthful).map fun r => (r, w)
  | .plugin (.exportVolume volumeName blockPath portalIP portalPort options), w =>
    ((ch.reply (.plugin (.exportVolume volumeName blockPath portalIP portalPort options))).filter fun r =>
      r.toOption.all fun nqn => nqn = Distort.VolumeIdentity.nqn volumeName).map fun r => (r, w)
  | c, w => (ch.reply c).map fun r => (r, w)

def initial : Prop := w.created = [] ∧ (∀ key, w.partitions key = ⟨[], none⟩) ∧ w.log = []

/-- **The system of the partitions, the drives and the agent.**  A job is a pass for one partition. -/
def machine : Machine Call Call.Resp World Key Choice (Except Err Result) where
  body key := reconcile s.plugins s.nodeName key
  answer := answer s
  change ch w := w.change s ch.change
  init := initial
  together _ _ := false

/-- When a pass for a partition that is marked for deletion, or gone, lists the bdevs, the target has
the drive of the partition. -/
def attachedWhenListing (key : Key) (c : Call) (w : World) : Bool :=
  match c with
  | .rpc (.bdevGetBdevs none) =>
    !s.spdk || ((w.partitions key).cur.any fun p => !p.metadata.deletionTimestamp) ||
      s.hardware.all fun d => !s.isParent key d || (w.media d.bdev).attached
  | _ => true

end Distort.Lifecycle
