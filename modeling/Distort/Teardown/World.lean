import Distort.Agent.PartitionManager
import Distort.Csi.Delete
import Distort.Lib.Machine
import Distort.Lib.Slot

/-!
One volume while it is attached, detached and deleted: its partition, its attachment, and everybody who
acts on them.

Publish, unpublish and delete calls run side by side in any number, with any interleaving of their
requests; the agent makes one pass after the other, with reads from a cache that lags.  Others may write
to both objects, but leave their two finalizers alone, may delete the partition, and collect the
attachment once its owner is gone.  Each request may fail, with or without having taken effect.

The log keeps, newest first, which attachments were created, on whose request each was first deleted, and which
`DeleteVolume` call has looked for an attachment when there was none.  No program reads it.
-/

namespace Distort.Teardown

open Go Lib Lib.Kube Api Agent Csi

variable [StdLib]

/-! ### The state -/

inductive Actor where
  | publish | unpublish | delete | agent | collector
  deriving DecidableEq

inductive Event where
  | created (id : Str)
  /-- The stored attachment, not marked so far, was marked for deletion or removed. -/
  | deleted (id : Str) (who : Actor)
  /-- The `DeleteVolume` call of this number looked for an attachment, and none was stored. -/
  | absent (call : ℕ)
  deriving DecidableEq

def Event.isCreated : Event → Bool
  | .created _ => true
  | _ => false

structure World where
  partition : Slot NVMePartitionSpec NVMePartitionStatus
  attachment : Slot NVMeVolumeAttachmentSpec NVMeVolumeAttachmentStatus
  log : List Event

/-- What is fixed: the name and the UID of the partition, and the node of the agent. -/
structure Setting where
  key : Key
  uid : Str
  nodeName : Str

variable (s : Setting)

def Setting.attachmentKey : Key := ⟨s.key.ns, Attachment.name s.uid⟩

/-! ### What is left open -/

/-- What others do. -/
inductive Change where
  /-- Any write to the partition that leaves its identity, its mark and the cleanup finalizer alone. -/
  | write (obj : NVMePartition)
  | delete
  /-- An administrator writes annotations and finalizers of the attachment. -/
  | administer (annotations : List (Str × Str)) (finalizers : List Str)
  /-- The garbage collector deletes an attachment whose partition is gone. -/
  | collect
  /-- The agent's cache of the attachment catches up. -/
  | sync

structure Choice where
  fate : Fate := .ok
  /-- How many versions a read of the cache skips. -/
  skip : ℕ := 0
  uuid : Str := []
  tick : Tick := .ticker
  /-- The answer to a call that the state says nothing about. -/
  reply : (c : Call) → Option c.Resp := fun _ => none
  change : Change := .collect

/-! ### Requests -/

variable (w : World)

namespace World

def note (e : Event) : World := { w with log := e :: w.log }

def setPartition (slot : Slot NVMePartitionSpec NVMePartitionStatus) : World := { w with partition := slot }

def setAttachment (slot : Slot NVMeVolumeAttachmentSpec NVMeVolumeAttachmentStatus) : World :=
  { w with attachment := slot }

/-- A request about the partition. -/
def onPartition {α : Type}
    (request : Slot NVMePartitionSpec NVMePartitionStatus → Except Err α × Slot NVMePartitionSpec NVMePartitionStatus) :
    Except Err α × World :=
  ((request w.partition).1, w.setPartition (request w.partition).2)

/-- A request about the attachment. -/
def onAttachment {α : Type} (request : Slot NVMeVolumeAttachmentSpec NVMeVolumeAttachmentStatus →
      Except Err α × Slot NVMeVolumeAttachmentSpec NVMeVolumeAttachmentStatus) : Except Err α × World :=
  ((request w.attachment).1, w.setAttachment (request w.attachment).2)

def createAttachment (ch : Choice) (obj : NVMeVolumeAttachment) (w : World) : Except Err NVMeVolumeAttachment × World :=
  match w.attachment.cur with
  | some _ => (.error alreadyExists, w)
  | none =>
    ((w.onAttachment (Slot.create (obj.admitted ch.uuid 0 {}))).1,
      (w.onAttachment (Slot.create (obj.admitted ch.uuid 0 {}))).2.note (.created obj.spec.attachmentID))

/-- Deletes whatever has the name. -/
def deleteAttachment (who : Actor) (w : World) : Except Err Unit × World :=
  match w.attachment.cur with
  | none => (.error notFound, w)
  | some a =>
    if a.metadata.deletionTimestamp then w.onAttachment Slot.delete
    else ((w.onAttachment Slot.delete).1, (w.onAttachment Slot.delete).2.note (.deleted a.spec.attachmentID who))

/-- What others make of the stored partition. -/
def written (q obj : NVMePartition) : NVMePartition :=
  { obj with metadata := { obj.metadata with
      ns := q.metadata.ns, name := q.metadata.name, uid := q.metadata.uid
      deletionTimestamp := q.metadata.deletionTimestamp } }

def change (ch : Change) (w : World) : Option World :=
  match ch with
  | .write obj =>
    match w.partition.cur with
    | none => none
    | some q =>
      if obj.containsFinalizer partitionFinalizer = q.containsFinalizer partitionFinalizer ∧
          q.finalizersAllowed obj.metadata.finalizers then
        some (w.setPartition (w.partition.write (written q obj).settle))
      else none
  | .delete => some (w.onPartition Slot.delete).2
  | .administer annotations finalizers =>
    match w.attachment.cur with
    | none => none
    | some a =>
      let a' : NVMeVolumeAttachment := { a with metadata := { a.metadata with annotations, finalizers } }
      if a'.containsFinalizer Attachment.finalizer = a.containsFinalizer Attachment.finalizer ∧
          a.finalizersAllowed finalizers then
        some (w.setAttachment (w.attachment.write a'.settle))
      else none
  | .collect => if w.partition.cur = none then some (w.deleteAttachment .collector).2 else none
  | .sync => some (w.setAttachment w.attachment.latest)

end World

/-! ### The system -/

inductive Job where
  | publish (rounds polls : ℕ) (req : PublishRequest)
  | unpublish (polls : ℕ) (req : UnpublishRequest)
  | delete (call polls : ℕ) (volumeID : Str)
  | pass

def Job.actor : Job → Actor
  | .publish _ _ _ => .publish
  | .unpublish _ _ => .unpublish
  | .delete _ _ _ => .delete
  | .pass => .agent

/-- One pass at a time, and a number for each `DeleteVolume` call. -/
def Job.together : Job → Job → Bool
  | .pass, .pass => false
  | .delete m _ _, .delete n _ _ => m ≠ n
  | _, _ => true

/-- What a look for the attachment leaves in the log. -/
def World.looked : Job → World
  | .delete n _ _ => if w.attachment.cur.isNone then w.note (.absent n) else w
  | _ => w

inductive Result where
  | publish (r : Except Status PublishResponse)
  | unpublish (r : Except Status Unit)
  | delete (r : Except Status Unit)
  | pass (r : Except Err Agent.Result)

def body : Job → Proc Result
  | .publish rounds polls req => controllerPublishVolume rounds polls req >>= fun r => .ret (.publish r)
  | .unpublish polls req => controllerUnpublishVolume polls req >>= fun r => .ret (.unpublish r)
  | .delete _ polls volumeID => deleteVolume polls volumeID >>= fun r => .ret (.delete r)
  | .pass => reconcile .atomic s.nodeName s.key >>= fun r => .ret (.pass r)

/-- Requests about this volume; the programs of this system make no others about partitions and
attachments. -/
def answer (ch : Choice) (j : Job) : (c : Call) → World → Option (c.Resp × World)
  | .api (.get .partition .api key), w =>
    ch.fate.answer w (if key = s.key then found w.partition.cur else .error notFound, w)
  | .api (.get .partition .cache key), w =>
    if key = s.key then ch.fate.answer w (w.onPartition (Slot.readCached ch.skip)) else none
  | .api (.list .partition .api), w => ch.fate.answer w (.ok w.partition.cur.toList, w)
  | .api (.delete .partition obj), w => if obj.key = s.key then ch.fate.answer w (w.onPartition Slot.delete) else none
  | .api (.patch .partition base obj), w =>
    if obj.key = s.key then ch.fate.answer w (w.onPartition (Slot.patch base obj)) else none
  | .api (.patchStatus .partition base obj), w =>
    if obj.key = s.key then ch.fate.answer w (w.onPartition (Slot.patchStatus .merge base obj)) else none
  | .api (.get .attachment .api key), w =>
    if key = s.attachmentKey then ch.fate.answer w (found w.attachment.cur, w.looked j) else none
  | .api (.get .attachment .cache key), w =>
    if key = s.attachmentKey then ch.fate.answer w (w.onAttachment (Slot.readCached ch.skip)) else none
  | .api (.create .attachment obj), w =>
    if obj.key = s.attachmentKey then ch.fate.answer w (w.createAttachment ch obj) else none
  | .api (.delete .attachment obj), w =>
    if obj.key = s.attachmentKey then ch.fate.answer w (w.deleteAttachment j.actor) else none
  | .api (.patch .attachment base obj), w =>
    if obj.key = s.attachmentKey then ch.fate.answer w (w.onAttachment (Slot.patch base obj)) else none
  | .api (.patchStatus .attachment base obj), w =>
    if obj.key = s.attachmentKey then ch.fate.answer w (w.onAttachment (Slot.patchStatus .merge base obj)) else none
  | .proc .select, w => some (ch.tick, w)
  | .proc .newUUID, w => some (ch.uuid, w)
  | .api (.create .partition _), _ | .api (.update .partition _), _ | .api (.update .attachment _), _
  | .api (.list .attachment _), _ => none
  | c, w => (ch.reply c).map fun r => (r, w)

/-- The partition is live and has the cleanup finalizer; there is no attachment. -/
def initial (w : World) : Prop :=
  w.attachment = ⟨[], none⟩ ∧ w.log = [] ∧ ∃ p, w.partition = ⟨[], some p⟩ ∧ p.key = s.key ∧ p.metadata.uid = s.uid ∧
    p.metadata.deletionTimestamp = false ∧ partitionFinalizer ∈ p.metadata.finalizers

/-- **The system of one volume.** -/
def machine : Machine Call Call.Resp World Job Choice Result where
  body := body s
  answer := answer s
  change ch w := w.change ch.change
  init := initial s
  together := Job.together

/-! ### The conditions -/

/-- The partition is marked for deletion or gone. -/
def closed : Bool := w.partition.cur.all fun q => q.metadata.deletionTimestamp

/-- An attachment was created since the call looked for one and there was none. -/
def interrupted (call : ℕ) (log : List Event) : Bool :=
  log.contains (.absent call) && (log.takeWhile (· ≠ .absent call)).any Event.isCreated

/-- No attachment is created between the check of a `DeleteVolume` call and its deletion of the live partition. -/
def undisturbed (j : Job) (c : Call) (w : World) : Bool :=
  match j, c with
  | .delete call _ _, .api (.delete .partition _) => closed w || !interrupted call w.log
  | _, _ => true

/-- An attachment is created only for a partition that is not marked for deletion, and once the partition
is, the agent's reads of the attachment have caught up. -/
def orderly (_ : Job) (c : Call) (w : World) : Bool :=
  match c with
  | .api (.create .attachment _) => !closed w
  | .api (.get .attachment .cache _) => !closed w || w.attachment.older.isEmpty
  | _ => true

end Distort.Teardown
