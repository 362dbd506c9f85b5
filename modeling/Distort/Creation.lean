import Distort.Agent.PartitionManager
import Distort.Csi.Create
import Distort.Csi.Delete
import Distort.Lib.Machine
import Distort.Lib.Slot
import Distort.Manager.Placement

/-!
What a `CreateVolume` call answers for, while others create and delete volumes of the same name.

Calls of `CreateVolume` and `DeleteVolume` for one name and passes of the agent run side by side in any number,
with any interleaving of their requests; the agent reads from a cache that lags.  Others may write to the
partition, but leave its identity, its fingerprint and its volume ID alone.  Each request may fail, with or
without having taken effect.

* `answers_for_its_own` — if nobody deletes the partition that the call has created or found before its last read
  of it, and the agent writes to a partition only if it is the one that its pass has read, then the answer is
  about a partition with the fingerprint of the request that is not marked for deletion;
* `answers_for_another` — a call answers with a volume that another call has created in place of its own, and
  with one that is being deleted.
-/

namespace Distort.Creation

open Go Lib Lib.Kube Api Agent Csi Proc

/-! ### The state -/

structure World where
  partition : Slot NVMePartitionSpec NVMePartitionStatus
  /-- The UID and the fingerprint of every partition that was stored under the name. -/
  born : List (Str × Str)
  /-- The UIDs of the partitions that were deleted, or marked for it. -/
  deleted : List Str
  /-- The UIDs that the request of a call for its partition has created or found. -/
  matched : ℕ → List Str
  /-- What a call has read last. -/
  lastRead : ℕ → Option NVMePartition
  /-- The UIDs that a pass was shown. -/
  shown : ℕ → List Str

/-- The name of the partitions, and the node of the agent. -/
structure Setting where
  key : Key
  nodeName : Str

/-- The calls and the passes, with a number for each. -/
inductive Job where
  | create (n polls : ℕ) (req : CreateVolumeRequest)
  | delete (polls : ℕ) (volumeID : Str)
  | pass (n : ℕ)

inductive Result where
  | create (r : Except Status CreateVolumeResponse)
  | delete (r : Except Status Unit)
  | pass (r : Except Err Agent.Result)

/-- What others do. -/
inductive Change where
  | write (obj : NVMePartition)
  | delete

structure Choice where
  fate : Fate := .ok
  /-- How many versions a read of the cache skips. -/
  skip : ℕ := 0
  uid : Str := []
  tick : Tick := .ticker
  /-- The answer to a call that the state says nothing about. -/
  reply : (c : Call) → Option c.Resp := fun _ => none
  change : Change := .delete

/-! ### Requests -/

/-- The value of one job is changed. -/
def set {α : Type} (f : ℕ → α) (n : ℕ) (a : α) (m : ℕ) : α := if m = n then a else f m

namespace World

variable (w : World)

def setPartition (slot : Slot NVMePartitionSpec NVMePartitionStatus) : World := { w with partition := slot }

/-- A request about the partition. -/
def onPartition {α : Type}
    (request : Slot NVMePartitionSpec NVMePartitionStatus → Except Err α × Slot NVMePartitionSpec NVMePartitionStatus) :
    Except Err α × World :=
  ((request w.partition).1, w.setPartition (request w.partition).2)

/-- A call has created or found the partition. -/
def noteMatched (uid : Str) : Job → World
  | .create n _ _ => { w with matched := set w.matched n (uid :: w.matched n) }
  | _ => w

def noteRead : Job → World
  | .create n _ _ => { w with lastRead := set w.lastRead n w.partition.cur }
  | _ => w

def noteShown (r : Except Err NVMePartition) : Job → World
  | .pass n => { w with shown := set w.shown n ((r.toOption.map (·.metadata.uid)).toList ++ w.shown n) }
  | _ => w

def read (j : Job) (w : World) : Except Err NVMePartition × World := (found w.partition.cur, w.noteRead j)

def readCached (j : Job) (skip : ℕ) (w : World) : Except Err NVMePartition × World :=
  let r := w.onPartition (Slot.readCached skip)
  (r.1, r.2.noteShown r.1 j)

/-- The partition is stored under the name. -/
def store (uid : Str) (obj : NVMePartition) : World :=
  { w with
    partition := w.partition.write (some (obj.admitted uid 0 {}))
    born := (uid, obj.spec.requestFingerprint) :: w.born }

/-- A new partition has a UID that no other one has had. -/
def create (j : Job) (uid : Str) (obj : NVMePartition) (w : World) : Option (Except Err NVMePartition × World) :=
  match w.partition.cur with
  | some q => some (.error alreadyExists, w.noteMatched q.metadata.uid j)
  | none =>
    if uid ∈ w.born.map Prod.fst then none
    else some (.ok (obj.admitted uid 0 {}), (w.store uid obj).noteMatched uid j)

/-- Deletes whatever has the name. -/
def delete : Except Err Unit × World :=
  match w.partition.cur with
  | none => (.error notFound, w)
  | some q => (.ok (), { w with partition := w.partition.write q.delete, deleted := q.metadata.uid :: w.deleted })

/-- What others make of the stored partition. -/
def written (q obj : NVMePartition) : NVMePartition where
  metadata := { obj.metadata with
    ns := q.metadata.ns, name := q.metadata.name, uid := q.metadata.uid
    deletionTimestamp := q.metadata.deletionTimestamp }
  spec := { obj.spec with requestFingerprint := q.spec.requestFingerprint }
  status := { obj.status with volumeID := q.status.volumeID }

def change : Change → Option World
  | .write obj => w.partition.cur.bind fun q =>
      if q.finalizersAllowed obj.metadata.finalizers then
        some (w.setPartition (w.partition.write (written q obj).settle))
      else none
  | .delete => some w.delete.2

end World

/-! ### The system -/

section

variable [StdLib]

def body (s : Setting) : Job → Proc Result
  | .create _ polls req => createVolume polls req >>= fun r => .ret (.create r)
  | .delete polls volumeID => deleteVolume polls volumeID >>= fun r => .ret (.delete r)
  | .pass _ => reconcile .atomic s.nodeName s.key >>= fun r => .ret (.pass r)

/-- Requests about the partitions of this name; nothing is stored under another one. -/
def answer (s : Setting) (ch : Choice) (j : Job) : (c : Call) → World → Option (c.Resp × World)
  | .api (.get .partition .api key), w =>
    if key = s.key then ch.fate.answer w (w.read j) else ch.fate.answer w (.error notFound, w)
  | .api (.get .partition .cache key), w => if key = s.key then ch.fate.answer w (w.readCached j ch.skip) else none
  | .api (.list .partition .api), w => ch.fate.answer w (.ok w.partition.cur.toList, w)
  | .api (.create .partition obj), w =>
    if obj.key = s.key then (w.create j ch.uid obj).bind fun served => ch.fate.answer w served else none
  | .api (.delete .partition obj), w => if obj.key = s.key then ch.fate.answer w w.delete else none
  | .api (.patch .partition base obj), w =>
    if obj.key = s.key then ch.fate.answer w (w.onPartition (Slot.patch base obj)) else none
  | .api (.patchStatus .partition base obj), w =>
    if obj.key = s.key then ch.fate.answer w (w.onPartition (Slot.patchStatus .merge base obj)) else none
  | .api (.update .partition _), _ => none
  | .proc .select, w => some (ch.tick, w)
  | c, w => (ch.reply c).map fun r => (r, w)

/-- Nothing is stored yet. -/
def initial (w : World) : Prop := w.partition = ⟨[], none⟩ ∧ w.born = [] ∧ ∀ n, w.matched n = []

/-- Two calls have different numbers. -/
def apart : Job → Job → Bool
  | .create m _ _, .create n _ _ => m ≠ n
  | _, _ => true

/-- **The system of the volumes of one name.** -/
def machine (s : Setting) : Machine Call Call.Resp World Job Choice Result where
  body := body s
  answer := answer s
  change ch w := w.change ch.change
  init := initial
  together := apart

end

/-- A call reads the partition only while what it has created or found is not deleted, and the agent writes to the
status of a partition only if it is what the pass was shown. -/
def undisturbed (j : Job) (c : Call) (w : World) : Bool :=
  match j, c with
  | .create n _ _, .api (.get .partition _ _) => w.matched n ≠ [] && (w.matched n).all fun u => u ∉ w.deleted
  | .pass n, .api (.patchStatus .partition _ _) =>
    w.partition.cur.all fun q => (w.shown n).all fun u => u = q.metadata.uid
  | _, _ => true

/-! ### Invariant -/

/-- The volume ID is the one of the object, or was not recorded yet. -/
def Names (key : Key) (uid volumeID : Str) : Prop :=
  volumeID = [] ∨ ∃ i, VolumeIdentity.new key.ns key.name uid = .ok i ∧ volumeID = i.volumeHandle

/-- What is true of every version of a partition. -/
structure Genuine (s : Setting) (w : World) (q : NVMePartition) : Prop where
  key : q.key = s.key
  born : (q.metadata.uid, q.spec.requestFingerprint) ∈ w.born
  names : Names s.key q.metadata.uid q.status.volumeID

structure Inv (s : Setting) (w : World) : Prop where
  genuine : ∀ q, some q ∈ w.partition.versions → Genuine s w q
  unique : (w.born.map Prod.fst).Nodup
  /-- What was not deleted is stored, without a mark. -/
  stored : ∀ u ∈ w.born.map Prod.fst, u ∉ w.deleted →
    ∃ q, w.partition.cur = some q ∧ q.metadata.uid = u ∧ q.metadata.deletionTimestamp = false
  matched : ∀ n, ∀ u ∈ w.matched n, u ∈ w.born.map Prod.fst

/-- What stays, apart from the last read of a call. -/
structure Grows (w w' : World) : Prop where
  born : w.born ⊆ w'.born
  matched : ∀ n, w.matched n ⊆ w'.matched n
  shown : ∀ n, w.shown n ⊆ w'.shown n

/-- The last read of a call is its own. -/
structure Rely (j : Job) (w w' : World) : Prop extends Grows w w' where
  lastRead : ∀ n polls req, j = .create n polls req → w'.lastRead n = w.lastRead n

structure Guar (j : Job) (w w' : World) : Prop extends Grows w w' where
  lastRead : ∀ n, (∀ polls req, j ≠ .create n polls req) → w'.lastRead n = w.lastRead n

/-- What has to hold when a call is made: a volume ID is recorded on what the pass was shown. -/
def Req (s : Setting) (j : Job) (c : Call) (w : World) : Prop :=
  match c with
  | .api (.patchStatus .partition base obj) =>
    obj.status.volumeID = base.status.volumeID ∨
      ∃ n, j = .pass n ∧ ∃ uid ∈ w.shown n, Names s.key uid obj.status.volumeID
  | _ => True

variable {uid : Str}

section

variable {s : Setting} {w w' : World} {j : Job}

theorem Grows.of_eq (hborn : w'.born = w.born) (hmatched : w'.matched = w.matched) (hshown : w'.shown = w.shown) :
    Grows w w' := by
  refine ⟨?_, fun n => ?_, fun n => ?_⟩
  · rw [hborn]
    exact List.Subset.refl _
  · rw [hmatched]
    exact List.Subset.refl _
  · rw [hshown]
    exact List.Subset.refl _

variable {w₁ w₂ w₃ : World}

theorem Grows.trans (h : Grows w₁ w₂) (h' : Grows w₂ w₃) : Grows w₁ w₃ :=
  ⟨List.Subset.trans h.born h'.born, fun n => List.Subset.trans (h.matched n) (h'.matched n),
    fun n => List.Subset.trans (h.shown n) (h'.shown n)⟩

theorem Rely.refl (j : Job) (w : World) : Rely j w w := ⟨.of_eq rfl rfl rfl, fun _ _ _ _ => rfl⟩

theorem Rely.trans (h : Rely j w₁ w₂) (h' : Rely j w₂ w₃) : Rely j w₁ w₃ :=
  ⟨h.toGrows.trans h'.toGrows, fun n polls req hj => (h'.lastRead n polls req hj).trans (h.lastRead n polls req hj)⟩

theorem Guar.rely {i : Job} (h : Guar i w w') (hij : apart i j = true) : Rely j w w' := by
  refine ⟨h.toGrows, fun n polls req hj => h.lastRead n fun polls' req' hi => ?_⟩
  subst hj hi
  simp [apart] at hij

theorem Genuine.mono {q : NVMePartition} (h : Genuine s w q) (hw : w.born ⊆ w'.born) : Genuine s w' q :=
  ⟨h.key, hw h.born, h.names⟩

theorem Inv.fingerprint (h : Inv s w) {u f f' : Str} (hf : (u, f) ∈ w.born) (hf' : (u, f') ∈ w.born) : f = f' :=
  congrArg Prod.snd (List.inj_on_of_nodup_map h.unique hf hf' rfl)

theorem Inv.current (h : Inv s w) {n : ℕ} {u : Str} (hu : u ∈ w.matched n) (hd : u ∉ w.deleted) :
    ∃ q, w.partition.cur = some q ∧ q.metadata.uid = u ∧ q.metadata.deletionTimestamp = false ∧ Genuine s w q := by
  obtain ⟨q, hcur, huid, hmark⟩ := h.stored u (h.matched n u hu) hd
  exact ⟨q, hcur, huid, hmark, h.genuine q (hcur ▸ w.partition.cur_mem)⟩

/-! ### Requests keep it -/

/-- The stored partition is replaced by one that is as genuine, and stays unless it was deleted. -/
theorem Inv.write (h : Inv s w) {q : NVMePartition} (hcur : w.partition.cur = some q) {v : Option NVMePartition}
    (hv : ∀ q', v = some q' → q'.key = q.key ∧ q'.metadata.uid = q.metadata.uid ∧
      q'.spec.requestFingerprint = q.spec.requestFingerprint ∧ Names s.key q.metadata.uid q'.status.volumeID)
    (hkept : q.metadata.uid ∉ w.deleted → q.metadata.deletionTimestamp = false →
      ∃ q', v = some q' ∧ q'.metadata.deletionTimestamp = false) : Inv s (w.setPartition (w.partition.write v)) := by
  have hq := h.genuine q (hcur ▸ w.partition.cur_mem)
  refine ⟨fun q' hq' => ?_, h.unique, fun u hu hd => ?_, h.matched⟩
  · rcases List.mem_append.1 hq' with hold | hnew
    · exact (h.genuine q' hold).mono (List.Subset.refl _)
    obtain ⟨hkey, huid, hprint, hnames⟩ := hv q' (List.mem_singleton.1 hnew).symm
    refine ⟨hkey.trans hq.key, ?_, huid ▸ hnames⟩
    rw [huid, hprint]
    exact hq.born
  · obtain ⟨q0, hcur0, huid, hmark⟩ := h.stored u hu hd
    obtain rfl : q0 = q := Option.some.inj (hcur0.symm.trans hcur)
    obtain ⟨q', hv', hmark'⟩ := hkept (huid ▸ hd) hmark
    exact ⟨q', hv', (hv q' hv').2.1.trans huid, hmark'⟩

theorem Grows.refl (w : World) : Grows w w := .of_eq rfl rfl rfl

theorem subset_set_cons {f : ℕ → List Str} {n : ℕ} {l : List Str} (m : ℕ) : f m ⊆ set f n (l ++ f n) m := by
  unfold set
  split
  · rename_i hm
    subst hm
    exact List.subset_append_right _ _
  · exact List.Subset.refl _

theorem Inv.noteMatched (h : Inv s w) (hu : uid ∈ w.born.map Prod.fst) (j : Job) :
    Inv s (w.noteMatched uid j) ∧ Grows w (w.noteMatched uid j) := by
  cases j with
  | create n polls req =>
    refine ⟨⟨fun q hq => (h.genuine q hq).mono (List.Subset.refl _), h.unique, h.stored, fun m u hm => ?_⟩,
      List.Subset.refl _, fun m => subset_set_cons (l := [uid]) m, fun _ => List.Subset.refl _⟩
    simp only [World.noteMatched, set] at hm
    split at hm
    · rcases List.mem_cons.1 hm with rfl | hm
      · exact hu
      · exact h.matched n u hm
    · exact h.matched m u hm
  | delete polls volumeID => exact ⟨h, .refl w⟩
  | pass n => exact ⟨h, .refl w⟩

theorem Inv.noteRead (h : Inv s w) (j : Job) : Inv s (w.noteRead j) ∧ Grows w (w.noteRead j) := by
  cases j with
  | create n polls req =>
    exact ⟨⟨fun q hq => (h.genuine q hq).mono (List.Subset.refl _), h.unique, h.stored, h.matched⟩, .of_eq rfl rfl rfl⟩
  | delete polls volumeID => exact ⟨h, .refl w⟩
  | pass n => exact ⟨h, .refl w⟩

theorem Inv.noteShown (h : Inv s w) (r : Except Err NVMePartition) (j : Job) :
    Inv s (w.noteShown r j) ∧ Grows w (w.noteShown r j) := by
  cases j with
  | create n polls req => exact ⟨h, .refl w⟩
  | delete polls volumeID => exact ⟨h, .refl w⟩
  | pass n =>
    exact ⟨⟨fun q hq => (h.genuine q hq).mono (List.Subset.refl _), h.unique, h.stored, h.matched⟩,
      List.Subset.refl _, fun _ => List.Subset.refl _, fun m => subset_set_cons m⟩

theorem Inv.readCached (h : Inv s w) (j : Job) (skip : ℕ) :
    Inv s (w.readCached j skip).2 ∧ Grows w (w.readCached j skip).2 ∧
    ∀ q, (w.readCached j skip).1 = .ok q →
      Genuine s w q ∧ ∀ n, j = .pass n → q.metadata.uid ∈ (w.readCached j skip).2.shown n := by
  obtain ⟨v, hshows, hfound⟩ := Slot.readCached_shows skip w.partition
  have hi : Inv s (w.onPartition (Slot.readCached skip)).2 := by
    refine ⟨fun q hq => (h.genuine q (hshows.suffix.subset hq)).mono (List.Subset.refl _), h.unique, fun u hu hd => ?_, h.matched⟩
    obtain ⟨q, hcur, hrest⟩ := h.stored u hu hd
    exact ⟨q, hshows.cur_eq.trans hcur, hrest⟩
  obtain ⟨hi', hg⟩ := hi.noteShown (w.onPartition (Slot.readCached skip)).1 j
  have hread : Grows w (w.onPartition (Slot.readCached skip)).2 := .of_eq rfl rfl rfl
  refine ⟨hi', hread.trans hg, fun q hq => ⟨?_, ?_⟩⟩
  · exact h.genuine q (found_eq_ok (hfound.symm.trans hq) ▸ hshows.mem)
  · rintro n rfl
    have hread : (w.onPartition (Slot.readCached skip)).1 = .ok q := hq
    simp [World.readCached, World.noteShown, hread, set, Except.toOption]

theorem Inv.create (h : Inv s w) {obj : NVMePartition} {served : Except Err NVMePartition × World}
    (hkey : obj.key = s.key) (hs : w.create j uid obj = some served) :
    Inv s served.2 ∧ Grows w served.2 ∧ ∀ q n polls req, served.1 = .ok q → j = .create n polls req →
      ∃ u ∈ served.2.matched n, (u, obj.spec.requestFingerprint) ∈ served.2.born := by
  unfold World.create at hs
  split at hs
  · rename_i q hcur
    cases hs
    have hq := h.genuine q (hcur ▸ w.partition.cur_mem)
    obtain ⟨hi, hg⟩ := h.noteMatched (List.mem_map_of_mem hq.born) j
    refine ⟨hi, hg, ?_⟩
    rintro _ _ _ _ ⟨⟩
  · rename_i hcur
    obtain ⟨hfresh, hs⟩ := Option.ite_none_left_eq_some.1 hs
    cases hs
    have hborn : ∀ {e}, e ∈ w.born → e ∈ (uid, obj.spec.requestFingerprint) :: w.born := List.mem_cons_of_mem _
    have hg0 : Grows w (w.store uid obj) := ⟨fun _ => hborn, fun _ => List.Subset.refl _, fun _ => List.Subset.refl _⟩
    have hi : Inv s (w.store uid obj) := by
      refine ⟨fun q hq => ?_, List.nodup_cons.2 ⟨hfresh, h.unique⟩, fun u hu hd => ?_, fun n u hu => ?_⟩
      · rcases List.mem_append.1 hq with hold | hnew
        · exact (h.genuine q hold).mono fun _ => hborn
        · obtain rfl := Option.some.inj (List.mem_singleton.1 hnew)
          exact ⟨hkey, List.mem_cons_self .., .inl rfl⟩
      · rcases List.mem_cons.1 hu with rfl | hu
        · exact ⟨_, rfl, rfl, rfl⟩
        · obtain ⟨q, hq, -⟩ := h.stored u hu hd
          exact absurd (hcur.symm.trans hq) nofun
      · exact List.mem_cons_of_mem _ (h.matched n u hu)
    obtain ⟨hi', hg⟩ := hi.noteMatched (List.mem_cons_self ..) j
    refine ⟨hi', hg0.trans hg, ?_⟩
    rintro q n polls req - rfl
    exact ⟨uid, by simp [World.noteMatched, set], List.mem_cons_self ..⟩

theorem Inv.delete (h : Inv s w) : Inv s w.delete.2 ∧ Grows w w.delete.2 := by
  unfold World.delete
  split
  · exact ⟨h, .refl w⟩
  rename_i q hcur
  have hq := h.genuine q (hcur ▸ w.partition.cur_mem)
  have hi : Inv s { w with deleted := q.metadata.uid :: w.deleted } :=
    ⟨fun q' hq' => (h.genuine q' hq').mono (List.Subset.refl _), h.unique,
      fun u hu hd => h.stored u hu fun hmem => hd (List.mem_cons_of_mem _ hmem), h.matched⟩
  refine ⟨hi.write hcur (fun q' hq' => ?_) fun hd => absurd (List.mem_cons_self ..) hd, .of_eq rfl rfl rfl⟩
  obtain ⟨-, -, -, -, huid, hkey, hspec, hstatus⟩ := delete_eq_some hq'
  exact ⟨hkey, huid, by rw [hspec], by rw [hstatus]; exact hq.names⟩

theorem Inv.patch (h : Inv s w) (base obj : NVMePartition) : Inv s (w.onPartition (Slot.patch base obj)).2 := by
  unfold World.onPartition
  rcases Slot.patch_cases base obj w.partition with ⟨err, heq⟩ | ⟨q, hcur, heq⟩
  · rw [heq]
    exact h
  rw [heq]
  have hq := h.genuine q (hcur ▸ w.partition.cur_mem)
  refine h.write hcur (fun q' hq' => ?_) fun _ hmark => ⟨_, settle_of_not_deleting hmark, hmark⟩
  rw [settle_eq_some hq']
  exact ⟨rfl, rfl, rfl, hq.names⟩

/-- **A volume ID is recorded on its own partition.** -/
theorem Inv.patchStatus (h : Inv s w) {base obj : NVMePartition} (hreq : Req s j (.api (.patchStatus .partition base obj)) w)
    (hg : undisturbed j (.api (.patchStatus .partition base obj)) w = true) :
    Inv s (w.onPartition (Slot.patchStatus .merge base obj)).2 := by
  unfold World.onPartition
  rcases Slot.patchStatus_cases NVMePartitionStatus.merge base obj w.partition with heq | ⟨q, hcur, heq⟩
  · rw [heq]
    exact h
  rw [heq]
  have hq := h.genuine q (hcur ▸ w.partition.cur_mem)
  refine h.write hcur (fun q' hq' => ?_) fun _ hmark => ⟨_, rfl, hmark⟩
  obtain rfl := Option.some.inj hq'
  refine ⟨rfl, rfl, rfl, ?_⟩
  show Names s.key q.metadata.uid (mergeField base.status.volumeID obj.status.volumeID q.status.volumeID)
  rcases hreq with hsame | ⟨n, rfl, uid, hshown, hnames⟩
  · rw [hsame, mergeField_self]
    exact hq.names
  rcases mergeField_cases base.status.volumeID obj.status.volumeID q.status.volumeID with hold | hnew
  · rw [hold]
    exact hq.names
  have huid : uid = q.metadata.uid := by
    simp only [undisturbed, hcur, Option.all_some, List.all_eq_true, decide_eq_true_eq] at hg
    exact hg uid hshown
  rw [hnew, ← huid]
  exact hnames

/-- **Whatever others do keeps it.** -/
theorem Inv.change (h : Inv s w) {ch : Change} (hw : w.change ch = some w') : Inv s w' ∧ ∀ j, Rely j w w' := by
  cases ch with
  | write obj =>
    obtain ⟨q, hcur, hite⟩ := Option.bind_eq_some_iff.1 hw
    obtain ⟨-, rfl⟩ := (Option.ite_none_right_eq_some.1 hite).imp_right Option.some.inj
    have hq := h.genuine q (hcur ▸ w.partition.cur_mem)
    refine ⟨h.write hcur (fun q' hq' => ?_) fun _ hmark => ⟨_, settle_of_not_deleting hmark, hmark⟩,
      fun j => ⟨.of_eq rfl rfl rfl, fun _ _ _ _ => rfl⟩⟩
    rw [settle_eq_some hq']
    exact ⟨rfl, rfl, rfl, hq.names⟩
  | delete =>
    cases hw
    -- nobody's own read is noted
    have hrely : ∀ j, Rely j w w.delete.2 := by
      intro j
      unfold World.delete
      split
      · exact .refl j w
      · exact ⟨.of_eq rfl rfl rfl, fun _ _ _ _ => rfl⟩
    exact ⟨h.delete.1, hrely⟩

/-- What an answer may do to the state. -/
inductive Move (s : Setting) (j : Job) (w : World) : Call → World → Prop
  | same {c : Call} : Move s j w c w
  | read {c : Call} : Move s j w c (w.noteRead j)
  | readCached {c : Call} (skip : ℕ) : Move s j w c (w.readCached j skip).2
  | create {c : Call} {uid : Str} {obj : NVMePartition} {served : Except Err NVMePartition × World}
      (hkey : obj.key = s.key) (hs : w.create j uid obj = some served) : Move s j w c served.2
  | delete {c : Call} : Move s j w c w.delete.2
  | patch {c : Call} (base obj : NVMePartition) : Move s j w c (w.onPartition (Slot.patch base obj)).2
  | patchStatus (base obj : NVMePartition) :
    Move s j w (.api (.patchStatus .partition base obj)) (w.onPartition (Slot.patchStatus .merge base obj)).2

variable {ch : Choice} {c : Call} {r : c.Resp}

theorem answer_move (ha : answer s ch j c w = some (r, w')) : Move s j w c w' := by
  have hmove : ∀ {w₁ : World}, Move s j w c w₁ → (w' = w ∨ w' = w₁) → Move s j w c w' := by
    rintro w₁ h (rfl | rfl)
    · exact .same
    · exact h
  unfold answer at ha
  split at ha
  · split at ha
    · exact hmove .read (Fate.answer_state ha)
    · exact hmove .same (Fate.answer_state ha)
  · obtain ⟨-, ha⟩ := Option.ite_none_right_eq_some.1 ha
    exact hmove (.readCached ch.skip) (Fate.answer_state ha)
  · exact hmove .same (Fate.answer_state ha)
  · obtain ⟨hkey, ha⟩ := Option.ite_none_right_eq_some.1 ha
    obtain ⟨served, hs, ha⟩ := Option.bind_eq_some_iff.1 ha
    exact hmove (.create hkey hs) (Fate.answer_state ha)
  · obtain ⟨-, ha⟩ := Option.ite_none_right_eq_some.1 ha
    exact hmove .delete (Fate.answer_state ha)
  · obtain ⟨-, ha⟩ := Option.ite_none_right_eq_some.1 ha
    exact hmove (.patch _ _) (Fate.answer_state ha)
  · obtain ⟨-, ha⟩ := Option.ite_none_right_eq_some.1 ha
    exact hmove (.patchStatus _ _) (Fate.answer_state ha)
  · cases ha
  · exact hmove .same (.inl (Prod.mk.inj (Option.some.inj ha)).2.symm)
  · obtain ⟨_, -, heq⟩ := Option.map_eq_some_iff.1 ha
    exact hmove .same (.inl (Prod.mk.inj heq).2.symm)

theorem Move.lastRead (h : Move s j w c w') {n : ℕ} (hn : ∀ polls req, j ≠ .create n polls req) :
    w'.lastRead n = w.lastRead n := by
  cases h with
  | same => rfl
  | read =>
    cases j with
    | create m polls req =>
      have hne : n ≠ m := fun heq => hn polls req (heq ▸ rfl)
      show set w.lastRead m w.partition.cur n = w.lastRead n
      rw [set, if_neg hne]
    | delete polls volumeID => rfl
    | pass m => rfl
  | readCached skip => cases j <;> rfl
  | create hkey hs =>
    unfold World.create at hs
    split at hs
    · cases hs
      cases j <;> rfl
    obtain ⟨-, hs⟩ := Option.ite_none_left_eq_some.1 hs
    cases hs
    cases j <;> rfl
  | delete =>
    unfold World.delete
    split <;> rfl
  | patch base obj => rfl
  | patchStatus base obj => rfl

/-- **Every request keeps the invariant**, given what it requires and what the run meets. -/
theorem answer_kept (h : Inv s w) (hreq : Req s j c w) (hg : undisturbed j c w = true)
    (ha : answer s ch j c w = some (r, w')) : Inv s w' ∧ Guar j w w' := by
  have hkept : Inv s w' ∧ Grows w w' := by
    cases answer_move ha with
    | same => exact ⟨h, .refl w⟩
    | read => exact h.noteRead j
    | readCached skip => exact (h.readCached j skip).imp_right And.left
    | create hkey hs => exact (h.create hkey hs).imp_right And.left
    | delete => exact h.delete
    | patch base obj => exact ⟨h.patch base obj, .of_eq rfl rfl rfl⟩
    | patchStatus base obj => exact ⟨h.patchStatus hreq hg, .of_eq rfl rfl rfl⟩
  exact ⟨hkept.1, hkept.2, fun n => (answer_move ha).lastRead⟩

end

/-! ### Programs -/

section

variable [StdLib] {s : Setting} {w w' : World} {j : Job}

/-- The answer is about what the call has read last: it has the fingerprint of the request, is not marked for
deletion, and is what the volume ID stands for. -/
def AnswersFor (n : ℕ) (req : CreateVolumeRequest) (resp : CreateVolumeResponse) (w : World) : Prop :=
  ∃ p normalized, w.lastRead n = some p ∧ normalize req = .ok normalized ∧
    p.spec.requestFingerprint = fingerprintCreateVolumeRequest normalized.canonical ∧
    p.metadata.deletionTimestamp = false ∧
    VolumeIdentity.parseVolumeHandle resp.volumeID = .ok ⟨p.metadata.ns, p.metadata.name, p.metadata.uid⟩ ∧
    (p.metadata.uid, p.spec.requestFingerprint) ∈ w.born

def Post (j : Job) (r : Result) (w : World) : Prop :=
  match j, r with
  | .create n _ req, .create (.ok resp) => AnswersFor n req resp w
  | _, _ => True

def outline (s : Setting) : Outline ((machine s).guarded undisturbed).system where
  Inv := Inv s
  Rely := Rely
  Guar := Guar
  Req := Req s
  Post := Post
  rely_refl := .refl
  rely_trans _ := .trans
  init := by
    rintro w ⟨hp, hb, hm⟩
    refine ⟨fun q hq => ?_, by simp [hb], fun u hu => ?_, fun n u hu => ?_⟩
    · rw [hp] at hq
      cases List.mem_singleton.1 hq
    · rw [hb] at hu
      cases hu
    · rw [hm n] at hu
      cases hu
  env := by
    rintro w w' hi ⟨ch, hw⟩
    exact hi.change hw
  guar i j w w' htog _ _ hg := hg.rely htog

theorem closed : (outline s).Closed := answer_kept

variable {c : Call}

theorem grows_safe {α : Type} {p : Proc α} {P : Call → Prop} {I : World → Prop} (hp : p.Only P) (hw : I w)
    (hI : ∀ w₁ w₂, I w₁ → Grows w₁ w₂ → I w₂) (hreq : ∀ c w₁, P c → I w₁ → Req s j c w₁) :
    (outline s).Safe j (fun _ => I) p w :=
  closed.only hp hw (fun w₁ w₂ h hr => hI w₁ w₂ h hr.toGrows) hreq fun _ _ w₁ _ w₂ _ _ h _ _ hg => hI w₁ w₂ h hg.toGrows

/-! ### `CreateVolume` -/

/-- The call has created or found a partition with the fingerprint. -/
def Matched (n : ℕ) (fingerprint : Str) (w : World) : Prop := ∃ u ∈ w.matched n, (u, fingerprint) ∈ w.born

omit [StdLib] in
theorem Matched.mono {n : ℕ} {fingerprint : Str} {w₁ w₂ : World} (h : Matched n fingerprint w₁) (hg : Grows w₁ w₂) :
    Matched n fingerprint w₂ := by
  obtain ⟨u, hu, hborn⟩ := h
  exact ⟨u, hg.matched n hu, hg.born hborn⟩

variable {n polls : ℕ} {req : CreateVolumeRequest}

omit [StdLib] in
/-- While a call is undisturbed, what is stored is what it has created or found. -/
theorem current_of_undisturbed (hi : Inv s w) {via : Reader} {key : Key}
    (hg : undisturbed (.create n polls req) (.api (.get .partition via key)) w = true) :
    (∀ u ∈ w.matched n, ∃ q, w.partition.cur = some q ∧ q.metadata.uid = u) ∧
    ∃ q, w.partition.cur = some q ∧ q.metadata.uid ∈ w.matched n ∧ q.metadata.deletionTimestamp = false ∧
      Genuine s w q := by
  simp only [undisturbed, Bool.and_eq_true, decide_eq_true_eq, List.all_eq_true] at hg
  obtain ⟨hne, hall⟩ := hg
  refine ⟨fun u hu => ?_, ?_⟩
  · obtain ⟨q, hcur, huid, -⟩ := hi.current hu (hall u hu)
    exact ⟨q, hcur, huid⟩
  · obtain ⟨u, hu⟩ := List.exists_mem_of_ne_nil _ hne
    obtain ⟨q, hcur, rfl, hmark, hq⟩ := hi.current hu (hall u hu)
    exact ⟨q, hcur, hu, hmark, hq⟩

/-- What a read of the call has shown: the partition that it has created or found, without a mark. -/
structure Read (s : Setting) (n : ℕ) (p : NVMePartition) (w : World) : Prop where
  last : w.lastRead n = some p
  live : p.metadata.deletionTimestamp = false
  key : p.key = s.key
  names : Names s.key p.metadata.uid p.status.volumeID
  born : (p.metadata.uid, p.spec.requestFingerprint) ∈ w.born
  matched : p.metadata.uid ∈ w.matched n

variable {p : NVMePartition}

omit [StdLib] in
theorem Read.mono {w₁ w₂ : World} (h : Read s n p w₁) (hr : Rely (.create n polls req) w₁ w₂) : Read s n p w₂ :=
  ⟨(hr.lastRead n polls req rfl).trans h.last, h.live, h.key, h.names, hr.born h.born, hr.matched n h.matched⟩

/-- **What a read of the call shows.** -/
theorem read_safe (key : Key) (w : World) : (outline s).Safe (.create n polls req)
    (fun r w₁ => ∀ p, r = .ok p → Read s n p w₁ ∧ ∀ f, Matched n f w → p.spec.requestFingerprint = f)
    (get .partition .api key) w := by
  refine closed.call (fun _ _ _ => trivial) (fun r w₁ w₂ h hr p hp => ⟨(h p hp).1.mono hr, (h p hp).2⟩) ?_
  intro ch w₁ r w₂ hr hi hg ha hi2 hguar p hp
  subst hp
  obtain ⟨hall, q, hcur, hu, hmark, hq⟩ := current_of_undisturbed hi hg
  have hread : (w₁.read (.create n polls req)) = (.ok p, w₂) := by
    simp only [machine, answer] at ha
    split at ha
    · exact Fate.answer_ok ha
    · cases Fate.answer_ok ha
  obtain ⟨hfound, rfl⟩ := Prod.mk.inj hread
  have hp := found_eq_ok hfound
  obtain rfl : q = p := Option.some.inj (hcur.symm.trans hp)
  refine ⟨⟨?_, hmark, hq.key, hq.names, hguar.born hq.born, hguar.matched n hu⟩, fun f hf => ?_⟩
  · simp only [World.noteRead, set, if_true, hcur]
  · obtain ⟨u, hu', hborn⟩ := hf.mono hr.toGrows
    obtain ⟨q', hcur', rfl⟩ := hall u hu'
    obtain rfl : q' = q := Option.some.inj (hcur'.symm.trans hcur)
    exact hi.fingerprint hq.born hborn

/-- The call goes on once it has created or found a partition with its fingerprint. -/
theorem createOrReuse_safe (normalized : Normalized) (w : World) : (outline s).Safe (.create n polls req)
    (fun r w₁ => r = .ok () → Matched n (fingerprintCreateVolumeRequest normalized.canonical) w₁)
    (createOrReuse normalized) w := by
  have hcreate : (outline s).Safe (.create n polls req)
      (fun r w₁ => ∀ p, r = .ok p → Matched n (fingerprintCreateVolumeRequest normalized.canonical) w₁)
      (Proc.create .partition normalized.partition) w := by
    refine closed.call (fun _ _ _ => trivial) (fun r w₁ w₂ h hr p hp => (h p hp).mono hr.toGrows) ?_
    intro ch w₁ r w₂ _ hi _ ha _ _ p hp
    subst hp
    obtain ⟨hkey, ha⟩ := Option.ite_none_right_eq_some.1 ha
    obtain ⟨served, hs, ha⟩ := Option.bind_eq_some_iff.1 ha
    obtain ⟨-, -, hnew⟩ := hi.create hkey hs
    have hserved : served = (.ok p, w₂) := Fate.answer_ok ha
    rw [hserved] at hnew
    exact hnew p n polls req rfl rfl
  refine .check (hcreate.conseq fun r w₁ _ h1 => ?_)
  cases r with
  | ok p => exact .ret fun w₂ hr _ _ => (h1 p rfl).mono hr.toGrows
  | error err =>
    simp only
    split
    · exact .ret fun _ _ _ => nofun
    refine .andThen (read_safe _ w₁) (fun _ _ _ => .ret fun _ _ _ => nofun) fun existing w₂ h2 => ?_
    split
    · exact .ret fun _ _ _ => nofun
    rename_i hsame
    have hread := (h2 existing rfl).1
    have hmatched : Matched n (fingerprintCreateVolumeRequest normalized.canonical) w₂ :=
      ⟨_, hread.matched, not_not.1 hsame ▸ hread.born⟩
    exact .ret fun w₃ hr _ _ => hmatched.mono hr.toGrows

omit [StdLib] in
theorem parse_of_names {volumeID : Str} (hkey : p.key = s.key)
    (hnames : Names s.key p.metadata.uid p.status.volumeID) (hid : volumeIDForPartition p = .ok volumeID) :
    VolumeIdentity.parseVolumeHandle volumeID = .ok ⟨p.metadata.ns, p.metadata.name, p.metadata.uid⟩ := by
  rw [← hkey] at hnames
  unfold volumeIDForPartition at hid
  split at hid
  · rcases hnew : VolumeIdentity.new p.metadata.ns p.metadata.name p.metadata.uid with err | i
    · rw [hnew] at hid
      cases hid
    rw [hnew] at hid
    cases hid
    exact VolumeIdentity.parseVolumeHandle_new hnew
  · rename_i hne
    obtain ⟨i, hnew, hi⟩ := hnames.resolve_left hne
    rw [← Except.ok.inj hid, hi]
    exact VolumeIdentity.parseVolumeHandle_new hnew

omit [StdLib] in
theorem req_of_looks (hc : looks c = true) (w : World) : Req s j c w := by
  unfold looks at hc
  split at hc <;> trivial

/-- **The answer of a call is about its own partition.** -/
theorem createVolume_safe (w : World) : (outline s).Safe (.create n polls req)
    (fun r w₁ => ∀ resp, r = .ok resp → AnswersFor n req resp w₁) (createVolume polls req) w := by
  unfold createVolume
  split
  · exact .ret fun _ _ _ => nofun
  rename_i normalized hnormalized
  refine .andThen (createOrReuse_safe normalized w) (fun _ _ _ => .ret fun _ _ _ => nofun) fun _ w₁ h1 => ?_
  have hwait := grows_safe (s := s) (j := .create n polls req) (waitForPartitionReady_only (fun _ => id) normalized.key
    polls) (h1 rfl) (fun _ _ h hg => h.mono hg) fun c w hc _ => req_of_looks hc w
  refine .andThen hwait (fun _ _ _ => .ret fun _ _ _ => nofun) fun _ w₂ h2 => ?_
  refine .andThen (read_safe normalized.key w₂) (fun _ _ _ => .ret fun _ _ _ => nofun) fun p w₃ h3 => ?_
  obtain ⟨hread, hprint⟩ := h3 p rfl
  refine .ret fun w4 hr _ resp hresp => ?_
  obtain ⟨hlast, hlive, hkey, hnames, hborn, -⟩ := hread.mono hr
  obtain ⟨hid, -⟩ := createdVolume_eq_ok hresp
  exact ⟨p, normalized, hlast, hnormalized, hprint _ h2, hlive, parse_of_names hkey hnames hid, hborn⟩

/-! ### The pass -/

/-- The call records no volume ID but that of the partition with the UID. -/
def Fits (s : Setting) (uid : Str) (c : Call) : Prop :=
  match c with
  | .api (.patchStatus .partition base obj) =>
    obj.status.volumeID = base.status.volumeID ∨ Names s.key uid obj.status.volumeID
  | _ => True

section

omit [StdLib]

theorem req_of_fits (hc : Fits s uid c) (hw : uid ∈ w.shown n) : Req s (.pass n) c w := by
  unfold Fits at hc
  unfold Req
  split at hc
  · exact hc.imp_right fun hnames => ⟨n, rfl, uid, hw, hnames⟩
  · trivial

theorem fits_of_looksUp (hc : looksUp c = true) : Fits s uid c := by
  unfold looksUp at hc
  split at hc <;> trivial

theorem fits_of_followsAttachment (hc : followsAttachment c = true) : Fits s uid c := by
  unfold followsAttachment at hc
  split at hc <;> trivial

theorem names_identities (hkey : p.key = s.key)
    (hnames : Names s.key p.metadata.uid p.status.volumeID) : Names s.key p.metadata.uid (identitiesForPartition p).2 := by
  rw [← hkey] at hnames ⊢
  unfold identitiesForPartition
  rcases hnew : VolumeIdentity.new p.metadata.ns p.metadata.name p.metadata.uid with err | i
  · exact hnames
  simp only
  split
  · exact .inr ⟨i, hnew, rfl⟩
  · exact hnames

end

/-- **All that a pass does with the partition fits it.** -/
theorem pass_safe (n : ℕ) (w : World) : (outline s).Complies (.pass n) (reconcile .atomic s.nodeName s.key) w := by
  have hget : (outline s).Safe (.pass n) (fun r w₁ => ∀ p, r = .ok p → p.key = s.key ∧
      Names s.key p.metadata.uid p.status.volumeID ∧ p.metadata.uid ∈ w₁.shown n) (get .partition .cache s.key) w := by
    refine closed.call (fun _ _ _ => trivial)
      (fun r w₁ w₂ h hr p hp => ⟨(h p hp).1, (h p hp).2.1, hr.shown n (h p hp).2.2⟩) ?_
    intro ch w₁ r w₂ _ hi _ ha _ _ p hp
    subst hp
    obtain ⟨-, ha⟩ := Option.ite_none_right_eq_some.1 ha
    have hserved : w₁.readCached (.pass n) ch.skip = (.ok p, w₂) := Fate.answer_ok ha
    obtain ⟨-, -, hread⟩ := hi.readCached (.pass n) ch.skip
    rw [hserved] at hread
    obtain ⟨hq, hshown⟩ := hread p rfl
    exact ⟨hq.key, hq.names, hshown n rfl⟩
  refine .andThen hget (fun _ _ _ => ?_) fun p w₁ h1 => ?_
  · split <;> exact .ended
  obtain ⟨hkey, hnames, hshown⟩ := h1 p rfl
  have hfits : ∀ {q : Proc (Except Err Agent.Result)}, q.Only (Fits s p.metadata.uid) →
      (outline s).Complies (.pass n) q w₁ := fun hq =>
    (grows_safe hq hshown (fun _ _ h hg => hg.shown n h) fun _ _ hc => req_of_fits hc).conseq fun _ _ _ _ => trivial
  have hlook : ∀ c, looksUp c = true → Fits s p.metadata.uid c := fun _ => fits_of_looksUp
  have hstatus : ∀ base obj : NVMePartition, obj.status.volumeID = base.status.volumeID →
      Fits s p.metadata.uid (.api (.patchStatus .partition base obj)) := fun _ _ => .inl
  split
  · exact .ended
  split
  · exact .ended
  split
  · split
    · exact hfits (recordProvisioningFailure_only hlook (minor_only hstatus) p _ _ true)
    · exact .ended
  rename_i resolved hres
  have hplugins : PluginsOnly (Fits s p.metadata.uid) resolved := pluginsOnly_of_resolve (fun _ => trivial) hres
  split
  · exact hfits (reconcilePartitionDeletion_only hlook (fun _ _ => trivial) hplugins.deleteVolume
      (fun _ => fits_of_followsAttachment) (fun _ => trivial) (fun _ _ => trivial) s.nodeName s.key p _
      (hplugins.unexportVolume _))
  · refine hfits (reconcileLive_only hlook (fun _ _ => trivial) hstatus hplugins (fun _ => fits_of_followsAttachment)
      (updatePartitionStatus_only hlook (fun base => .inr (names_identities hkey hnames)) s.key) (fun q _ => ?_) s.nodeName)
    unfold addPartitionFinalizer
    split
    · exact only_done q
    · exact only_op (P := Fits s p.metadata.uid) trivial

/-! ### Every run -/

theorem body_safe (j : Job) (w : World) : (outline s).Safe j (Post j) (body s j) w := by
  cases j with
  | create n polls req =>
    refine .bind ((createVolume_safe w).conseq fun r w₁ _ h1 => Terms.Safe.ret fun w₂ hr _ => ?_)
    rcases r with st | resp
    · trivial
    obtain ⟨p, normalized, hlast, hnormalized, hprint, hlive, hparse, hborn⟩ := h1 resp rfl
    exact ⟨p, normalized, (hr.lastRead n polls req rfl).trans hlast, hnormalized, hprint, hlive, hparse, hr.born hborn⟩
  | delete polls volumeID =>
    have honly : (deleteVolume polls volumeID).Only fun c => ∀ w, Req s (.delete polls volumeID) c w :=
      deleteVolume_only (fun _ hc => req_of_looks hc) (fun _ _ => trivial) (fun _ => trivial) polls volumeID
    exact .bind ((closed.complies honly fun _ w hc => hc w).conseq fun _ w₁ _ _ => .ended)
  | pass n => exact .bind ((pass_safe n w).conseq fun _ w₁ _ _ => .ended)

/-- **A call answers for its own volume.**  In every run in which a call reads the partition only while what it has
created or found is not deleted, and the agent writes to the status of a partition only if it is what its pass was
shown, the volume ID of a successful answer stands for the partition that the call has read last; that one has
the fingerprint of the request, as has every version of it, and was not marked for deletion. -/
theorem answers_for_its_own {pool : Pool Call Call.Resp World Job Result}
    (h : ((machine s).guarded undisturbed).system.Reachable pool) {n polls : ℕ} {req : CreateVolumeRequest}
    {resp : CreateVolumeResponse} (ht : (.create n polls req, .ret (.create (.ok resp))) ∈ pool.threads) :
    ∃ p normalized, pool.world.lastRead n = some p ∧ normalize req = .ok normalized ∧
      VolumeIdentity.parseVolumeHandle resp.volumeID = .ok ⟨p.metadata.ns, p.metadata.name, p.metadata.uid⟩ ∧
      p.spec.requestFingerprint = fingerprintCreateVolumeRequest normalized.canonical ∧
      p.metadata.deletionTimestamp = false ∧
      ∀ q, some q ∈ pool.world.partition.versions → q.metadata.uid = p.metadata.uid →
        q.spec.requestFingerprint = p.spec.requestFingerprint := by
  have hkept : (outline s).Kept pool := Outline.Kept.reachable (fun j _ w _ _ => body_safe j w) h
  have hi : Inv s pool.world := hkept.inv
  obtain ⟨p, normalized, hlast, hnormalized, hprint, hlive, hparse, hborn⟩ : AnswersFor n req resp pool.world :=
    hkept.post ht
  refine ⟨p, normalized, hlast, hnormalized, hparse, hprint, hlive, fun q hq huid => ?_⟩
  have hqborn := (hi.genuine q hq).born
  rw [huid] at hqborn
  exact hi.fingerprint hqborn hborn

end

/-! ### Runs -/

section

attribute [local instance] asciiLib

open VolumeIdentity (sampleHandle)

def sampleSetting : Setting := ⟨⟨str "ns", str "vol"⟩, str "n1"⟩

def sampleWorld : World := ⟨⟨[], none⟩, [], [], fun _ => [], fun _ => none, fun _ => []⟩

theorem initial_sampleWorld : initial sampleWorld := ⟨rfl, rfl, fun _ => rfl⟩

def sampleRequest (bytes : ℤ) : CreateVolumeRequest where
  name := "vol"
  capacityRange := some ⟨bytes, 0⟩
  volumeCapabilities := [some ⟨some ⟨[], []⟩, some .singleNodeWriter⟩]
  parameters := [(str "csi.storage.k8s.io/pvc/namespace", str "ns")]

/-- The latest job makes `n` calls, with fresh reads. -/
def serve (n : ℕ) (uid : String) : List (Act Job Choice) :=
  Act.serve { uid := str uid, skip := 99, reply := Manager.sampleReplies } 0 n

/-- A call asks for its partition. -/
def asking (n : ℕ) (bytes : ℤ) (uid : String) : List (Act Job Choice) :=
  .start (.create n 1 (sampleRequest bytes)) :: serve 1 uid

/-- The manager places the partition, and a pass provisions and exports it. -/
def exporting (uid : String) : List (Act Job Choice) :=
  List.flatten [[.env { change := .write (Manager.samplePlaced uid) }, .start (.pass 0)], serve 31 uid, [.drop 0]]

/-- A call has answered, for a partition that passes the test. -/
def answered (test : NVMePartition → Normalized → Bool) (pool : Pool Call Call.Resp World Job Result) : Bool :=
  pool.threads.any fun t =>
    match t with
    | (.create n _ req, .ret (.create (.ok resp))) =>
      match pool.world.lastRead n, normalize req with
      | some p, .ok normalized => test p normalized && decide ((VolumeIdentity.parseVolumeHandle resp.volumeID).toOption =
          some ⟨p.metadata.ns, p.metadata.name, p.metadata.uid⟩)
      | _, _ => false
    | _ => false

theorem exists_of_answered {test : NVMePartition → Normalized → Bool} {pool : Pool Call Call.Resp World Job Result}
    (h : answered test pool = true) :
    ∃ n polls req resp p normalized, (.create n polls req, .ret (.create (.ok resp))) ∈ pool.threads ∧
      pool.world.lastRead n = some p ∧ normalize req = .ok normalized ∧
      VolumeIdentity.parseVolumeHandle resp.volumeID = .ok ⟨p.metadata.ns, p.metadata.name, p.metadata.uid⟩ ∧
      test p normalized = true := by
  obtain ⟨t, ht, htest⟩ := List.any_eq_true.1 h
  split at htest
  · split at htest
    · rename_i hlast hnormalized
      simp only [Bool.and_eq_true, decide_eq_true_eq] at htest
      refine ⟨_, _, _, _, _, _, ht, hlast, hnormalized, ?_, htest.1⟩
      rcases hparse : VolumeIdentity.parseVolumeHandle _ with err | ref
      · rw [hparse] at htest
        cases htest.2
      rw [hparse] at htest
      exact congrArg Except.ok (Option.some.inj htest.2)
    · cases htest
  · cases htest

/-- A call is answered without anybody in its way. -/
theorem answers_for_its_own_exported : ∃ pool, ((machine sampleSetting).guarded undisturbed).system.Reachable pool ∧
    ∃ n polls req resp, (.create n polls req, .ret (.create (.ok resp))) ∈ pool.threads ∧
    ∃ (p : NVMePartition) (normalized : Normalized), normalize req = .ok normalized ∧
      VolumeIdentity.parseVolumeHandle resp.volumeID = .ok ⟨p.metadata.ns, p.metadata.name, p.metadata.uid⟩ ∧
      p.spec.requestFingerprint = fingerprintCreateVolumeRequest normalized.canonical ∧
      p.metadata.deletionTimestamp = false := by
  obtain ⟨pool, hpool, hp⟩ := Machine.exists_reachable (M := (machine sampleSetting).guarded undisturbed)
    (asking 1 4194304 "u1" ++ exporting "u1" ++ serve 3 "") sampleWorld (answered fun _ _ => true)
    (show (machine sampleSetting).init sampleWorld from initial_sampleWorld) (by decide +kernel)
  obtain ⟨n, polls, req, resp, -, -, ht, -⟩ := exists_of_answered hp
  obtain ⟨p, normalized, -, hnormalized, hparse, hprint, hlive, -⟩ := answers_for_its_own hpool ht
  exact ⟨pool, hpool, n, polls, req, resp, ht, p, normalized, hnormalized, hparse, hprint, hlive⟩

/-- **A call answers for another volume.**  The partition of the first call is deleted while the call waits, a
second call with another size creates one of the same name, and the first call answers with it.  And a call that is
tried again while the partition is being deleted answers with it all the same. -/
theorem answers_for_another : (∃ pool, (machine sampleSetting).system.Reachable pool ∧ ∃ n polls req resp p normalized,
      (.create n polls req, .ret (.create (.ok resp))) ∈ pool.threads ∧
      pool.world.lastRead n = some p ∧ normalize req = .ok normalized ∧
      VolumeIdentity.parseVolumeHandle resp.volumeID = .ok ⟨p.metadata.ns, p.metadata.name, p.metadata.uid⟩ ∧
      p.spec.requestFingerprint ≠ fingerprintCreateVolumeRequest normalized.canonical) ∧
    ∃ pool, (machine sampleSetting).system.Reachable pool ∧ ∃ n polls req resp p normalized,
      (.create n polls req, .ret (.create (.ok resp))) ∈ pool.threads ∧
      pool.world.lastRead n = some p ∧ normalize req = .ok normalized ∧
      VolumeIdentity.parseVolumeHandle resp.volumeID = .ok ⟨p.metadata.ns, p.metadata.name, p.metadata.uid⟩ ∧
      p.metadata.deletionTimestamp = true := by
  refine ⟨?_, ?_⟩
  · obtain ⟨pool, hpool, hp⟩ := Machine.exists_reachable (M := machine sampleSetting)
      (List.flatten [asking 1 4194304 "u1", [.start (.delete 1 sampleHandle)], serve 4 "", [.drop 0],
        asking 2 8388608 "u2", [.drop 0], exporting "u2", serve 3 ""]) sampleWorld
      (answered fun p normalized => p.spec.requestFingerprint ≠ fingerprintCreateVolumeRequest normalized.canonical)
      (show (machine sampleSetting).init sampleWorld from initial_sampleWorld) (by decide +kernel)
    obtain ⟨n, polls, req, resp, p, normalized, ht, hlast, hnormalized, hparse, htest⟩ := exists_of_answered hp
    exact ⟨pool, hpool, n, polls, req, resp, p, normalized, ht, hlast, hnormalized, hparse, of_decide_eq_true htest⟩
  · obtain ⟨pool, hpool, hp⟩ := Machine.exists_reachable (M := machine sampleSetting)
      (List.flatten [asking 1 4194304 "u1", [.drop 0], exporting "u1", [.start (.delete 1 sampleHandle)], serve 3 "",
        asking 2 4194304 "", serve 4 ""]) sampleWorld
      (answered fun p _ => p.metadata.deletionTimestamp)
      (show (machine sampleSetting).init sampleWorld from initial_sampleWorld) (by decide +kernel)
    obtain ⟨n, polls, req, resp, p, normalized, ht, hlast, hnormalized, hparse, htest⟩ := exists_of_answered hp
    exact ⟨pool, hpool, n, polls, req, resp, p, normalized, ht, hlast, hnormalized, hparse, htest⟩

end

end Distort.Creation
