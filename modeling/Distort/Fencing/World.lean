import Distort.Agent.Attachment
import Distort.Agent.HostAccess
import Distort.Csi.Attach
import Distort.Lib.Feed
import Distort.Lib.Machine

/-!
One exported volume: its attachment object, its target, and everybody who acts on them.

Publish and unpublish calls run side by side in any number, with any interleaving of their requests;
the agent makes one pass after the other; an administrator may write annotations and finalizers of
their own.  Each request may fail, with or without having taken effect.

The state keeps a log of what happened to the attachment and the target, newest first.  Nothing
reads it; it is there to say what came before what.
-/

namespace Distort.Fencing

open Go Lib Lib.Kube Api Agent Csi

variable [StdLib]

/-! ### The state -/

/-- Who a request comes from. -/
inductive Actor where
  | publish (nodeID : Str)
  | unpublish (nodeID : Str)
  | agent
  deriving DecidableEq

/-- What is noted in the log. -/
inductive Event where
  /-- An attachment was stored, while the target let in `acl`. -/
  | created (spec : NVMeVolumeAttachmentSpec) (acl : List Str)
  /-- The force-detach annotation of the stored attachment got this value. -/
  | annotated (id value : Str)
  /-- The stored attachment, not marked so far, was marked for deletion or removed. -/
  | deleted (id owner : Str) (who : Actor)
  /-- The agent was shown this attachment. -/
  | read (a : Option NVMeVolumeAttachment)
  /-- A call of the agent left the target with these hosts. -/
  | acl (hosts : List Str)
  /-- The fencing finalizer was taken off the stored attachment, while the target let in `acl`. -/
  | released (id : Str) (acl : List Str)
  deriving DecidableEq

/-- The subsystem of the volume: whom it lets in, and whether it is linked to the port. -/
structure Target where
  allowAnyHost : Bool
  hosts : List Str
  linked : Bool

structure World where
  attachment : Feed (Option NVMeVolumeAttachment)
  target : Target
  log : List Event

/-- What is fixed: the partition, the backend that exports it, and whether the agent's cache lags. -/
structure Config where
  partition : NVMePartition
  backend : TargetBackend
  access : backend.reconcileHostAccess = Spdk.reconcileHostAccess ∨
    backend.reconcileHostAccess = Kernel.reconcileHostAccess
  lag : Bool

variable (cfg : Config)

def Config.key : Key := attachmentKey cfg.partition

def Config.nqn : Str := cfg.partition.status.nqn

/-! ### What is left open -/

/-- Everything that the state does not determine. -/
structure Choice where
  fate : Fate := .ok
  /-- How many versions a read of the cache skips. -/
  skip : ℕ := 0
  uuid : Str := []
  resourceVersion : ℕ := 0
  tick : Tick := .ticker
  interrupted : Option Err := none
  /-- The other subsystems of the target. -/
  others : List Subsystem := []
  /-- Whether a directory to be made is there already. -/
  present : Bool := false
  annotations : List (Str × Str) := []
  finalizers : List Str := []

/-! ### Requests about the attachment -/

variable (w : World)

namespace World

def note (e : Event) : World := { w with log := e :: w.log }

/-- A new version of the attachment is stored. -/
def store (v : Option NVMeVolumeAttachment) : World :=
  { w with attachment := w.attachment.write v }

/-- The stored attachment. -/
def cur : Option NVMeVolumeAttachment := w.attachment.cur

/-- The agent is shown a version that is not older than the last one it was shown. -/
def readCached (lag : Bool) (skip : ℕ) (w : World) : Except Err NVMeVolumeAttachment × World :=
  let shown := if lag then w.attachment.view skip else (w.attachment.cur, w.attachment.latest)
  (found shown.1, { w with attachment := shown.2 }.note (.read shown.1))

def create (ch : Choice) (obj : NVMeVolumeAttachment) (w : World) : Except Err NVMeVolumeAttachment × World :=
  match w.cur with
  | some _ => (.error alreadyExists, w)
  | none =>
    let new := obj.admitted ch.uuid ch.resourceVersion {}
    (.ok new, (w.store (some new)).note (.created obj.spec w.target.hosts))

/-- Attachment IDs are not used twice. -/
def fresh (id : Str) : Bool :=
  w.log.all fun e => match e with
    | .created spec _ => spec.attachmentID ≠ id
    | _ => true

/-- Deletes whatever has the name. -/
def delete (who : Actor) (w : World) : Except Err Unit × World :=
  match w.cur with
  | none => (.error notFound, w)
  | some a =>
    if a.metadata.deletionTimestamp then (.ok (), w.store a.delete)
    else (.ok (), (w.store a.delete).note (.deleted a.spec.attachmentID a.spec.nodeID who))

/-- Patches the finalizers of whatever has the name. -/
def patch (base obj : NVMeVolumeAttachment) (w : World) : Except Err NVMeVolumeAttachment × World :=
  match w.cur with
  | none => (.error notFound, w)
  | some a =>
    let a' := Object.patchFinalizers base obj a
    if !a.finalizersAllowed a'.metadata.finalizers then (.error forbidden, w)
    else if a.containsFinalizer Attachment.finalizer && !a'.containsFinalizer Attachment.finalizer then
      (.ok a', (w.store a'.settle).note (.released a.spec.attachmentID w.target.hosts))
    else (.ok a', w.store a'.settle)

/-- Patches the status of whatever has the name. -/
def patchStatus (base obj : NVMeVolumeAttachment) (w : World) : Except Err NVMeVolumeAttachment × World :=
  match w.cur with
  | none => (.error notFound, w)
  | some a =>
    let a' := { a with status := .merge base.status obj.status a.status }
    (.ok a', w.store (some a'))

/-- An administrator writes annotations and finalizers, but leaves the fencing finalizer alone. -/
def administer (annotations : List (Str × Str)) (finalizers : List Str) (w : World) : Option World :=
  match w.cur with
  | none => none
  | some a =>
    let a' : NVMeVolumeAttachment := { a with metadata := { a.metadata with annotations, finalizers } }
    if a'.containsFinalizer Attachment.finalizer = a.containsFinalizer Attachment.finalizer ∧
        a.finalizersAllowed finalizers then
      some ((w.store a'.settle).note
        (.annotated a.spec.attachmentID (a'.annotation Attachment.forceDetachAnnotation)))
    else none

/-! ### Requests about the target -/

/-- The target lets in these hosts from now on. -/
def setHosts (hosts : List Str) : World :=
  { w with target := { w.target with hosts } }.note (.acl hosts)

def setAnyHost (allowAnyHost : Bool) : World :=
  { w with target := { w.target with allowAnyHost } }

def setLinked (linked : Bool) : World :=
  { w with target := { w.target with linked } }

def removeHost (host : Str) (w : World) : World := w.setHosts (w.target.hosts.filter fun h => h ≠ host)

def addHost (host : Str) (w : World) : World :=
  if host ∈ w.target.hosts then w else w.setHosts (w.target.hosts ++ [host])

def rpc (ch : Choice) : (c : Rpc) → World → Option (c.Resp × World)
  | .nvmfGetSubsystems, w =>
    ch.fate.answer w (.ok (ch.others.filter (fun s => s.nqn ≠ cfg.nqn) ++
      [{ nqn := cfg.nqn, allowAnyHost := w.target.allowAnyHost, hosts := w.target.hosts }]), w)
  | .nvmfSubsystemAllowAnyHost nqn, w =>
    ch.fate.answer w (.ok (), if nqn = cfg.nqn then w.setAnyHost false else w)
  | .nvmfSubsystemRemoveHost nqn host, w =>
    ch.fate.answer w (.ok (), if nqn = cfg.nqn then w.removeHost host else w)
  | .nvmfSubsystemAddHost nqn host, w =>
    ch.fate.answer w (.ok (), if nqn = cfg.nqn then w.addHost host else w)
  | _, _ => none

/-- The host whose entry among the allowed hosts a path is. -/
def entryOf (nqn : Str) (path : Path) : Option Str :=
  if path.dropLast = Kernel.allowedHostsPath nqn then path.getLast? else none

def removePath (nqn : Str) (path : Path) (w : World) : Except Err Unit × World :=
  match entryOf nqn path with
  | some host => if host ∈ w.target.hosts then (.ok (), w.removeHost host) else (.error notFound, w)
  | none =>
    if path = Kernel.linkPath nqn then
      if w.target.linked then (.ok (), w.setLinked false) else (.error notFound, w)
    else (.ok (), w)

def makeLink (nqn : Str) (path : Path) (w : World) : Except Err Unit × World :=
  match entryOf nqn path with
  | some host => if host ∈ w.target.hosts then (.error alreadyExists, w) else (.ok (), w.addHost host)
  | none =>
    if path = Kernel.linkPath nqn then
      if w.target.linked then (.error alreadyExists, w) else (.ok (), w.setLinked true)
    else (.ok (), w)

def fs (ch : Choice) : (c : FsCall) → World → Option (c.Resp × World)
  | .readFile _, w => ch.fate.answer w (.ok (if w.target.allowAnyHost then "1\n" else "0\n"), w)
  | .writeFile path data, w =>
    ch.fate.answer w (.ok (), if path = Kernel.allowAnyPath cfg.nqn then w.setAnyHost (data ≠ str "0") else w)
  | .readDir _, w => ch.fate.answer w (.ok w.target.hosts, w)
  | .readlink _, w =>
    ch.fate.answer w (if w.target.linked then .ok (Kernel.subsystemPath cfg.nqn) else .error notFound, w)
  | .lstat _, w => ch.fate.answer w (if w.target.linked then .ok true else .error notFound, w)
  | .remove path, w => ch.fate.answer w (w.removePath cfg.nqn path)
  | .mkdir _, w => ch.fate.answer w (if ch.present then .error alreadyExists else .ok (), w)
  | .mkdirAll _, w => ch.fate.answer w (.ok (), w)
  | .symlink _ path, w => ch.fate.answer w (w.makeLink cfg.nqn path)
  | .stat _, w => ch.fate.answer w (.ok (), w)

end World

/-! ### The system -/

inductive Job where
  | publish (rounds polls : ℕ) (req : PublishRequest)
  | unpublish (polls : ℕ) (req : UnpublishRequest)
  | pass

def Job.actor : Job → Actor
  | .publish _ _ req => .publish req.nodeID
  | .unpublish _ req => .unpublish req.nodeID
  | .pass => .agent

inductive Result where
  | publish (r : Except Status PublishResponse)
  | unpublish (r : Except Status Unit)
  | pass (r : Except Err Unit)

def body : Job → Proc Result
  | .publish rounds polls req => controllerPublishVolume rounds polls req >>= fun r => .ret (.publish r)
  | .unpublish polls req => controllerUnpublishVolume polls req >>= fun r => .ret (.unpublish r)
  | .pass => reconcileAttachmentAccess cfg.partition cfg.backend >>= fun r => .ret (.pass r)

/-- Requests about this volume; the programs of this system make no others. -/
def answer (ch : Choice) (j : Job) : (c : Call) → World → Option (c.Resp × World)
  | .api (.get .partition _ key), w =>
    ch.fate.answer w (if key = cfg.partition.key then .ok cfg.partition else .error notFound, w)
  | .api (.get .attachment .api key), w =>
    if key = cfg.key then ch.fate.answer w (found w.cur, w) else none
  | .api (.get .attachment .cache key), w =>
    if key = cfg.key then ch.fate.answer w (w.readCached cfg.lag ch.skip) else none
  | .api (.create .attachment obj), w =>
    if obj.key = cfg.key ∧ w.fresh obj.spec.attachmentID then ch.fate.answer w (w.create ch obj) else none
  | .api (.delete .attachment obj), w =>
    if obj.key = cfg.key then ch.fate.answer w (w.delete j.actor) else none
  | .api (.patch .attachment base obj), w =>
    if obj.key = cfg.key then ch.fate.answer w (w.patch base obj) else none
  | .api (.patchStatus .attachment base obj), w =>
    if obj.key = cfg.key then ch.fate.answer w (w.patchStatus base obj) else none
  | .proc .ctxErr, w => some (ch.interrupted, w)
  | .proc .select, w => some (ch.tick, w)
  | .proc .newUUID, w => if ch.uuid = [] then none else some (ch.uuid, w)
  | .rpc c, w => w.rpc cfg ch c
  | .fs c, w => w.fs cfg ch c
  | _, _ => none

/-- No attachment, and a target that lets nobody in. -/
def initial : Prop :=
  w.attachment = ⟨[], none⟩ ∧ w.target.allowAnyHost = false ∧ w.target.hosts = [] ∧ w.log = []

/-- **The system of one exported volume.** -/
def machine : Machine Call Call.Resp World Job Choice Result where
  body := body cfg
  answer := answer cfg
  change ch w := w.administer ch.annotations ch.finalizers
  init := initial
  together i j := i.actor ≠ .agent || j.actor ≠ .agent

end Distort.Fencing
