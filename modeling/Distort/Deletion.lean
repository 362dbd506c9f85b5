import Distort.Csi.Delete
import Distort.Lib.Machine
import Distort.Lib.Store

/-!
Which partition a `DeleteVolume` call deletes.

Any number of calls run side by side, while others create partitions, under names that were used
before too, delete them and take off their finalizers.

* `deleteVolume_exact` — in every run in which the stored partition, where there is one, still has the
  UID that the call has checked, only the partition of the handle is deleted; and a success is
  returned only once a look made since the call was started has not found it;
* `deleteVolume_replacement` — a call deletes a partition that was created after its check.

The log keeps, newest first, what was created, which calls were started, what they were shown and what they asked to
delete.
-/

namespace Distort.Deletion

open Go Lib Lib.Kube Api Csi Proc

/-! ### The state -/

inductive Event where
  | created (key : Key) (uid : Str)
  | started (call : ℕ)
  /-- A call looked up the key, and this UID was stored there, if any. -/
  | looked (key : Key) (uid : Option Str)
  /-- The call for this handle asked to delete the stored partition. -/
  | requested (key : Key) (uid volumeID : Str)
  deriving DecidableEq

structure World where
  partitions : Store NVMePartitionSpec NVMePartitionStatus
  log : List Event

/-- What others do to the partitions. -/
inductive Change where
  | create (uid : Str) (obj : NVMePartition)
  | delete (key : Key)
  /-- Any write that leaves the identity of the partition alone; finalizers may go. -/
  | write (obj : NVMePartition)

structure Choice where
  fate : Fate := .ok
  tick : Tick := .ticker
  /-- The attachment of the volume, if there is one at this moment. -/
  attachment : Option NVMeVolumeAttachment := none
  change : Change := .delete ⟨[], []⟩

namespace World

def note (w : World) (e : Event) : World := { w with log := e :: w.log }

def get (key : Key) (w : World) : Except Err NVMePartition × World :=
  (found (w.partitions.find key), w.note (.looked key ((w.partitions.find key).map (·.metadata.uid))))

/-- Deletes whatever has the name. -/
def delete (volumeID : Str) (key : Key) (w : World) : Except Err Unit × World :=
  match w.partitions.find key with
  | none => (.error notFound, w)
  | some p =>
    (.ok (), { w with partitions := (w.partitions.delete key).2 }.note (.requested key p.metadata.uid volumeID))

/-- UIDs are not used twice. -/
def fresh (w : World) (uid : Str) : Bool :=
  w.log.all fun e => match e with
    | .created _ u => u ≠ uid
    | _ => true

/-- What a write of others makes of a stored partition. -/
def written (w : World) (stored obj : NVMePartition) : NVMePartition :=
  w.partitions.stamp { obj with
    metadata := { obj.metadata with
      ns := stored.metadata.ns, name := stored.metadata.name, uid := stored.metadata.uid
      deletionTimestamp := stored.metadata.deletionTimestamp } }

def change (w : World) : Change → Option World
  | .create uid obj =>
    if w.fresh uid ∧ w.partitions.find obj.key = none then
      some ({ w with partitions := (w.partitions.create uid ({} : NVMePartitionStatus) obj).2 }.note (.created obj.key uid))
    else none
  | .delete key => some { w with partitions := (w.partitions.delete key).2 }
  | .write obj =>
    (w.partitions.find obj.key).map fun stored =>
      { w with partitions := w.partitions.put obj.key (w.written stored obj).settle }

end World

/-! ### The system -/

/-- A call of `DeleteVolume`, with its number and the number of times it polls. -/
structure Job where
  call : ℕ
  polls : ℕ
  volumeID : Str

def answer (ch : Choice) (j : Job) : (c : Call) → World → Option (c.Resp × World)
  | .api (.get .partition _ key), w => ch.fate.answer w (w.get key)
  | .api (.list .partition _), w => ch.fate.answer w (.ok w.partitions.objects, w)
  | .api (.get .attachment _ _), w => ch.fate.answer w (found ch.attachment, w)
  | .api (.delete .partition obj), w => ch.fate.answer w (w.delete j.volumeID obj.key)
  | .proc .select, w => some (ch.tick, w)
  | _, _ => none

def initial (w : World) : Prop := w.partitions.objects = [] ∧ w.log = []

/-- **The system of the partitions and the calls that delete them.** -/
def machine [StdLib] : Machine Call Call.Resp World Job Choice (Except Status Unit) where
  body j := deleteVolume j.polls j.volumeID
  answer := answer
  -- no two calls have the same number
  begin j w := if Event.started j.call ∈ w.log then none else some (w.note (.started j.call))
  change ch w := w.change ch.change
  init := initial
  together _ _ := true

/-- The deletion meets the partition whose UID the call has checked, if any.  Nothing is asked of a
call whose handle carries no UID. -/
def ownUID (j : Job) (c : Call) (w : World) : Bool :=
  match c, VolumeIdentity.parseVolumeHandle j.volumeID with
  | .api (.delete .partition obj), .ok _ => (w.partitions.find obj.key).all fun p => p.metadata.uid = obj.metadata.uid
  | _, _ => true

/-! ### The invariant -/

/-- If the handle has a UID, these are the name and the UID that it stands for. -/
def Names (volumeID : Str) (key : Key) (uid : Str) : Prop :=
  ∀ ref, VolumeIdentity.parseVolumeHandle volumeID = .ok ref → key = ref.key ∧ uid = ref.uid

/-- The invariant; of what was asked to delete it speaks only where the deletions are `strict`. -/
structure Inv (strict : Prop) (w : World) : Prop where
  ok : w.partitions.Ok
  created : ∀ p ∈ w.partitions.objects, Event.created p.key p.metadata.uid ∈ w.log
  /-- What was created before a look and is still stored was seen by this look. -/
  gone : ∀ key uid before, Event.looked key uid :: before <:+ w.log → ∀ p ∈ w.partitions.objects, p.key = key →
    Event.created key p.metadata.uid ∈ before → uid = some p.metadata.uid
  requested : strict → ∀ key uid volumeID, Event.requested key uid volumeID ∈ w.log → Names volumeID key uid

variable {strict : Prop} {w w' : World}

variable {uid : Str}

theorem fresh_iff : w.fresh uid = true ↔ ∀ key, Event.created key uid ∉ w.log := by
  simp only [World.fresh, List.all_eq_true]
  constructor
  · intro h key hm
    simpa using h _ hm
  · intro h e he
    cases e with
    | created key u =>
      refine decide_eq_true ?_
      rintro rfl
      exact h key he
    | _ => rfl

/-- Every stored partition was stored before, as far as its name and UID go. -/
def Kept (w w' : World) : Prop :=
  ∀ p' ∈ w'.partitions.objects, ∃ p ∈ w.partitions.objects, p'.key = p.key ∧ p'.metadata.uid = p.metadata.uid

theorem Inv.shrink (h : Inv strict w) (hk : Kept w w') (hok : w'.partitions.Ok) (hl : w'.log = w.log) :
    Inv strict w' := by
  refine ⟨hok, fun p' hp' => ?_, fun key uid before hb p' hp' hkey hc => ?_, by rw [hl]; exact h.requested⟩
  · obtain ⟨p, hp, hpk, hpu⟩ := hk p' hp'
    rw [hl, hpk, hpu]
    exact h.created p hp
  · obtain ⟨p, hp, hpk, hpu⟩ := hk p' hp'
    rw [hl] at hb
    rw [hpu] at hc ⊢
    exact h.gone key uid before hb p hp (hpk.symm.trans hkey) hc

theorem Inv.note (h : Inv strict w) {e : Event} (he : ∀ key uid, e ≠ .looked key uid)
    (hr : strict → ∀ key uid volumeID, e = .requested key uid volumeID → Names volumeID key uid) :
    Inv strict (w.note e) := by
  refine ⟨h.ok, fun p hp => List.mem_cons_of_mem _ (h.created p hp), fun key uid before hb => ?_,
    fun hs key uid volumeID hm => ?_⟩
  · rcases List.suffix_cons_iff.1 hb with heq | hb
    · exact absurd (List.cons.inj heq).1.symm (he key uid)
    · exact h.gone key uid before hb
  · rcases List.mem_cons.1 hm with heq | hm
    · exact hr hs key uid volumeID heq.symm
    · exact h.requested hs key uid volumeID hm

/-! ### Steps -/

theorem Inv.get (h : Inv strict w) (key : Key) : Inv strict (w.get key).2 := by
  refine ⟨h.ok, fun p hp => List.mem_cons_of_mem _ (h.created p hp), fun key' uid before hb p hp hpk hc => ?_,
    fun hs key' uid volumeID hm => ?_⟩
  · rcases List.suffix_cons_iff.1 hb with heq | hb
    · -- the look itself: one partition for each key
      obtain ⟨he, -⟩ := List.cons.inj heq
      cases he
      rw [← hpk, h.ok.find_eq hp]
      rfl
    · exact h.gone key' uid before hb p hp hpk hc
  · rcases List.mem_cons.1 hm with heq | hm
    · cases heq
    · exact h.requested hs key' uid volumeID hm

theorem kept_put {key : Key} {v : Option NVMePartition}
    (hv : ∀ p', v = some p' → ∃ p ∈ w.partitions.objects, p'.key = p.key ∧ p'.metadata.uid = p.metadata.uid)
    (hw : w'.partitions = w.partitions.put key v) : Kept w w' := by
  intro p' hp'
  rw [hw] at hp'
  rcases Store.mem_put.1 hp' with ⟨hold, -⟩ | ⟨hnew, -⟩
  · exact ⟨p', hold, rfl, rfl⟩
  · exact hv p' hnew

theorem Inv.delete (h : Inv strict w) (key : Key) :
    Inv strict { w with partitions := (w.partitions.delete key).2 } := by
  unfold Store.delete
  cases hf : w.partitions.find key with
  | none => exact h
  | some p =>
    obtain ⟨hp, hpk⟩ := Store.mem_of_find hf
    have hv : ∀ p', p.delete.map w.partitions.stamp = some p' →
        p'.key = p.key ∧ p'.metadata.uid = p.metadata.uid ∧
          p'.metadata.resourceVersion = w.partitions.version + 1 := by
      intro p' hp'
      obtain ⟨q, hq, rfl⟩ := Option.map_eq_some_iff.1 hp'
      obtain ⟨-, -, -, -, hu, hk, -⟩ := delete_eq_some hq
      exact ⟨hk, hu, rfl⟩
    refine h.shrink (kept_put (fun p' hp' => ⟨p, hp, (hv p' hp').1, (hv p' hp').2.1⟩) rfl) ?_ rfl
    exact h.ok.put fun p' hp' => ⟨(hv p' hp').1.trans hpk, (hv p' hp').2.2⟩

theorem Inv.request (h : Inv strict w) {volumeID : Str} {key : Key}
    (hr : strict → ∀ p, w.partitions.find key = some p → Names volumeID key p.metadata.uid) :
    Inv strict (w.delete volumeID key).2 := by
  unfold World.delete
  cases hf : w.partitions.find key with
  | none => exact h
  | some p =>
    refine (h.delete key).note (by simp) fun hs key' uid volumeID' heq => ?_
    cases heq
    exact hr hs p hf

theorem Inv.change (h : Inv strict w) {ch : Change} (hw : w.change ch = some w') :
    Inv strict w' ∧ w.log <:+ w'.log := by
  cases ch with
  | delete key =>
    cases hw
    exact ⟨h.delete key, List.suffix_rfl⟩
  | write obj =>
    obtain ⟨p, hf, rfl⟩ := Option.map_eq_some_iff.1 hw
    obtain ⟨hp, hpk⟩ := Store.mem_of_find hf
    have hv : ∀ p', (w.written p obj).settle = some p' → p' = w.written p obj := fun p' hp' => settle_eq_some hp'
    refine ⟨h.shrink (kept_put (fun p' hp' => ⟨p, hp, ?_⟩) rfl) (h.ok.put fun p' hp' => ?_) rfl, List.suffix_rfl⟩
    · rw [hv p' hp']
      exact ⟨rfl, rfl⟩
    · rw [hv p' hp']
      exact ⟨hpk, rfl⟩
  | create uid obj =>
    simp only [World.change, Option.ite_none_right_eq_some, Option.some.injEq] at hw
    obtain ⟨⟨hfresh, hf⟩, rfl⟩ := hw
    refine ⟨⟨?_, fun p hp => ?_, fun key u before hb p hp hpk hc => ?_, fun hs key u volumeID hm => ?_⟩,
      List.suffix_cons _ _⟩
    · simp only [World.note, Store.create, hf]
      exact h.ok.add hf rfl
    · simp only [World.note, Store.create, hf] at hp ⊢
      rcases List.mem_append.1 hp with hold | hnew
      · exact List.mem_cons_of_mem _ (h.created p hold)
      · obtain rfl := List.mem_singleton.1 hnew
        exact List.mem_cons_self
    · simp only [World.note, Store.create, hf] at hp
      rcases List.suffix_cons_iff.1 hb with heq | hb
      · cases (List.cons.inj heq).1
      rcases List.mem_append.1 hp with hold | hnew
      · exact h.gone key u before hb p hold hpk hc
      -- the new one was not there before
      obtain rfl := List.mem_singleton.1 hnew
      have hmem : Event.created key uid ∈ w.log := hb.subset (List.mem_cons_of_mem _ hc)
      exact absurd hmem (fresh_iff.1 hfresh key)
    · rcases List.mem_cons.1 hm with heq | hm
      · cases heq
      · exact h.requested hs key u volumeID hm

/-! ### The calls -/

section

variable [StdLib] {G : Job → Call → World → Bool} {j : Job}

/-- Where the deletions are strict, the guard sees to it. -/
def Guards (strict : Prop) (G : Job → Call → World → Bool) : Prop :=
  strict → ∀ j c w, G j c w = true → ownUID j c w = true

/-- At some look, made after the call was started, the partition of the handle was not there. -/
def Gone (call : ℕ) (key : Key) (uid : Str) (log : List Event) : Prop :=
  ∃ u before, Event.looked key u :: before <:+ log ∧ Event.started call ∈ before ∧ u ≠ some uid

variable {key : Key}

omit [StdLib] in
theorem Gone.mono {call : ℕ} {l l' : List Event} (h : Gone call key uid l) (hl : l <:+ l') : Gone call key uid l' := by
  obtain ⟨u, before, hb, hrest⟩ := h
  exact ⟨u, before, hb.trans hl, hrest⟩

/-- A success means that the partition of the handle is gone. -/
def Promise (j : Job) (r : Except Status Unit) (w : World) : Prop :=
  r = .ok () → ∀ ref, VolumeIdentity.parseVolumeHandle j.volumeID = .ok ref → Gone j.call ref.key ref.uid w.log

theorem started (h : (machine.guarded G).system.start j w w') :
    Event.started j.call ∉ w.log ∧ w' = w.note (.started j.call) := by
  obtain ⟨hnew, h⟩ := Option.ite_none_left_eq_some.1 h
  exact ⟨hnew, (Option.some.inj h).symm⟩

def outline (strict : Prop) (G : Job → Call → World → Bool) : Outline (machine.guarded G).system where
  Inv := Inv strict
  Rely _ w w' := w.log <:+ w'.log
  Guar _ w w' := w.log <:+ w'.log
  Req _ _ _ := True
  Post := Promise
  rely_refl _ _ := List.suffix_rfl
  rely_trans _ := List.IsSuffix.trans
  init := by
    rintro w ⟨hp, hl⟩
    refine ⟨⟨by simp [hp], by simp [hp]⟩, by simp [hp], by simp [hl], by simp [hl]⟩
  start j w w' hi hw := by
    obtain ⟨-, rfl⟩ := started hw
    exact .inr ⟨hi.note (by simp) (by simp), fun _ => List.suffix_cons _ _⟩
  env := by
    rintro w w' hi ⟨ch, hw⟩
    exact ⟨(hi.change hw).1, fun _ => (hi.change hw).2⟩
  guar _ _ _ _ _ _ _ hg := hg

/-- The call was started before. -/
def Begun (j : Job) (w : World) : Prop := Event.started j.call ∈ w.log

omit [StdLib] in
theorem Begun.mono (w1 w2 : World) (h : Begun j w1) (hl : w1.log <:+ w2.log) : Begun j w2 := hl.subset h

/-- A call that changes nothing. -/
theorem look_safe {c : Call} (hs : Begun j w) (hc : ∀ ch w1 r w2, answer ch j c w1 = some (r, w2) → w2 = w1) :
    (outline strict G).Safe j (fun _ => Begun j) (.call c .ret) w := by
  refine Outline.call (fun _ _ _ => trivial) (fun _ => Begun.mono) fun ch w1 r w2 hl hi _ ha => ?_
  obtain rfl := hc ch w1 r w2 ha
  exact ⟨hi, List.suffix_rfl, hs.mono _ _ hl⟩

/-- What a look at a partition tells. -/
def Seen (call : ℕ) (key : Key) : Except Err NVMePartition → List Event → Prop
  | .ok p, log => p.key = key ∧ ∀ uid, p.metadata.uid ≠ uid → Gone call key uid log
  | .error err, log => err.isNotFound = true → ∀ uid, Gone call key uid log

omit [StdLib] in
theorem Seen.mono {call : ℕ} {r : Except Err NVMePartition} {l l' : List Event} (h : Seen call key r l) (hl : l <:+ l') :
    Seen call key r l' := by
  cases r with
  | ok p => exact ⟨h.1, fun uid hne => (h.2 uid hne).mono hl⟩
  | error err => exact fun hn uid => (h hn uid).mono hl

theorem get_safe (hs : Begun j w) : (outline strict G).Safe j (fun r w1 => Begun j w1 ∧ Seen j.call key r w1.log)
    (Proc.get .partition .api key) w := by
  refine Outline.call (fun _ _ _ => trivial) (fun _ _ _ h hl => ⟨h.1.mono _ _ hl, h.2.mono hl⟩) ?_
  intro ch w1 r w2 hl hi _ ha
  have hs := hs.mono _ _ hl
  have hkept : Inv strict w2 ∧ w1.log <:+ w2.log := by
    rcases Fate.answer_state ha with rfl | rfl
    · exact ⟨hi, List.suffix_rfl⟩
    · exact ⟨hi.get key, List.suffix_cons _ _⟩
  refine ⟨hkept.1, hkept.2, hs.mono _ _ hkept.2, ?_⟩
  cases r with
  | ok p =>
    have heq := Fate.answer_ok ha
    cases hf : w1.partitions.find key with
    | none => simp [World.get, hf, found] at heq
    | some q =>
      simp only [World.get, hf, found, Prod.mk.injEq, Except.ok.injEq] at heq
      obtain ⟨rfl, rfl⟩ := heq
      refine ⟨(Store.mem_of_find hf).2, fun uid hne => ⟨_, _, List.suffix_rfl, hs, ?_⟩⟩
      simpa using hne
  | error err =>
    intro hn uid
    have heq := Fate.answer_notFound ha hn
    cases hf : w1.partitions.find key with
    | some q => simp [World.get, hf, found] at heq
    | none =>
      simp only [World.get, hf, found, Prod.mk.injEq] at heq
      obtain ⟨-, rfl⟩ := heq
      exact ⟨none, _, List.suffix_rfl, hs, by simp⟩

theorem delete_safe (hG : Guards strict G) {obj : NVMePartition} (hs : Begun j w)
    (hn : Names j.volumeID obj.key obj.metadata.uid) :
    (outline strict G).Safe j (fun _ => Begun j) (Proc.delete .partition obj) w := by
  refine Outline.call (fun _ _ _ => trivial) (fun _ => Begun.mono) fun ch w1 r w2 hl hi hg ha => ?_
  have hs := hs.mono _ _ hl
  have hserved : Inv strict (w1.delete j.volumeID obj.key).2 := by
    refine hi.request fun hs p hf ref href => ?_
    obtain ⟨hkey, huid⟩ := hn ref href
    have hown := hG hs j _ w1 hg
    simp only [ownUID, href, hf, Option.all_some, decide_eq_true_eq] at hown
    exact ⟨hkey, hown.trans huid⟩
  have hlog : w1.log <:+ (w1.delete j.volumeID obj.key).2.log := by
    unfold World.delete
    cases w1.partitions.find obj.key with
    | none => exact List.suffix_rfl
    | some p => exact List.suffix_cons _ _
  rcases Fate.answer_state ha with rfl | rfl
  · exact ⟨hi, List.suffix_rfl, hs⟩
  · exact ⟨hserved, hlog, hs.mono _ _ hlog⟩

/-- A success means that the partition is gone. -/
def Wiped (j : Job) (key : Key) (uid : Str) (r : Except Err Unit) (w : World) : Prop :=
  r = .ok () → Gone j.call key uid w.log

theorem waitForPartitionDeleted_safe {polls : ℕ} (hs : Begun j w) :
    (outline strict G).Safe j (Wiped j key uid) (waitForPartitionDeleted key uid polls) w := by
  have hfail : ∀ err w1, (outline strict G).Safe j (Wiped j key uid) (fail err) w1 :=
    fun err w1 => Terms.Safe.ret fun _ _ _ => nofun
  -- one round, given the next one
  have hround : ∀ again, (∀ w, Begun j w → (outline strict G).Safe j (Wiped j key uid) again w) → ∀ w, Begun j w →
      (outline strict G).Safe j (Wiped j key uid) (waitForPartitionDeletedOnce key uid again) w := by
    intro again hagain w hs
    have hdone : ∀ {w1 : World}, Gone j.call key uid w1.log → (outline strict G).Safe j (Wiped j key uid) (done ()) w1 :=
      fun hg => Terms.Safe.ret fun _ hl _ _ => hg.mono hl
    refine .andThen (get_safe hs) (fun err w1 h1 => ?_) fun p w1 h1 => ?_
    · split
      · rename_i hn
        exact hdone (h1.2 hn uid)
      · exact hfail err w1
    split
    · rename_i hne
      exact hdone (h1.2.2 uid hne)
    refine .bind ((look_safe h1.1 fun ch w1 r w2 ha => ?_).conseq fun tick w2 _ h2 => ?_)
    · simp only [answer, Option.some.injEq, Prod.mk.injEq] at ha
      exact ha.2.symm
    · cases tick with
      | done err => exact hfail err w2
      | timer => exact hfail _ w2
      | ticker => exact hagain w2 h2
  induction polls generalizing w with
  | zero => exact hround _ (fun w1 _ => hfail _ w1) w hs
  | succ n ih => exact hround _ (fun _ => ih) w hs

theorem fail_safe (s : Status) (w : World) : (outline strict G).Safe j (Promise j) (fail s) w :=
  Terms.Safe.ret fun _ _ _ => nofun

theorem deletePartitionAndWait_safe (hG : Guards strict G) {p : NVMePartition} {polls : ℕ}
    (hs : Begun j w) (hn : Names j.volumeID p.key p.metadata.uid) :
    (outline strict G).Safe j (Promise j) (deletePartitionAndWait polls p) w := by
  refine .bind ((look_safe hs ?_).conseq fun r w1 _ h1 => ?_)
  · exact fun _ _ _ _ ha => (Fate.answer_state ha).elim id id
  cases r with
  | ok a => exact fail_safe _ w1
  | error err =>
    simp only
    split
    · exact fail_safe _ w1
    have hdelete : (outline strict G).Safe j (fun _ => Begun j) (ignoringNotFound (Proc.delete .partition p)) w1 :=
      .andThen (delete_safe hG h1 hn) (fun _ _ h => .keep h Begun.mono) fun _ _ h => .keep h Begun.mono
    refine .andThen hdelete (fun _ w2 _ => fail_safe _ w2) fun _ w2 h2 => ?_
    refine .andThen (waitForPartitionDeleted_safe h2) (fun _ w3 _ => fail_safe _ w3) fun _ w3 h3 => ?_
    refine .ret fun w4 hl _ _ ref href => ?_
    obtain ⟨hkey, huid⟩ := hn ref href
    rw [← hkey, ← huid]
    exact (h3 rfl).mono hl

theorem deleteVolume_safe (hG : Guards strict G) (j : Job) (w : World) (hs : Begun j w) :
    (outline strict G).Safe j (Promise j) (deleteVolume j.polls j.volumeID) w := by
  have hthen : ∀ p w1, Begun j w1 → Names j.volumeID p.key p.metadata.uid →
      (outline strict G).Safe j (Promise j) ((deletePartitionAndWait j.polls p).check fail done) w1 :=
    fun p w1 h1 hn => Terms.Safe.andThen (deletePartitionAndWait_safe hG h1 hn) (fun s w2 _ => fail_safe s w2)
      fun _ _ hp => .ret fun w3 hl3 _ _ ref href => (hp rfl ref href).mono hl3
  unfold deleteVolume
  split
  · exact fail_safe _ w
  cases hparse : VolumeIdentity.parseVolumeHandle j.volumeID with
  | error err =>
    -- a legacy handle names no UID, so nothing is promised
    have hnone : ∀ ref, VolumeIdentity.parseVolumeHandle j.volumeID ≠ .ok ref := fun ref href => by
      rw [hparse] at href
      cases href
    refine .andThen (look_safe hs fun _ _ _ _ ha => (Fate.answer_state ha).elim id id) (fun _ w1 _ => fail_safe _ w1)
      fun partitions w1 h1 => ?_
    split
    · exact .ret fun _ _ _ _ ref href => absurd href (hnone ref)
    · exact hthen _ w1 h1 fun ref href => absurd href (hnone ref)
    · exact fail_safe _ w1
  | ok ref =>
    have hdone : ∀ w1, Gone j.call ref.key ref.uid w1.log → (outline strict G).Safe j (Promise j) (done ()) w1 := by
      intro w1 hg
      refine .ret fun w2 hl2 _ _ ref' href => ?_
      obtain rfl : ref = ref' := Except.ok.inj (hparse.symm.trans href)
      exact hg.mono hl2
    refine .andThen (get_safe hs) (fun err w1 h1 => ?_) fun p w1 h1 => ?_
    · split
      · rename_i hn
        exact hdone w1 (h1.2 hn ref.uid)
      · exact fail_safe _ w1
    split
    · rename_i hne
      exact hdone w1 (h1.2.2 ref.uid hne)
    rename_i heq
    refine hthen p w1 h1.1 fun ref' href => ?_
    obtain rfl : ref = ref' := Except.ok.inj (hparse.symm.trans href)
    exact ⟨h1.2.1, not_not.1 heq⟩

theorem kept (hG : Guards strict G) {c : Pool Call Call.Resp World Job (Except Status Unit)}
    (hc : (machine.guarded G).system.Reachable c) : (outline strict G).Kept c :=
  Outline.Kept.reachable (fun j _ w' _ hw => deleteVolume_safe hG j w' ((started hw).2 ▸ List.mem_cons_self)) hc

omit [StdLib] in
/-- What a success says about the partitions stored now: the one of the handle, if it had been
created when the call looked, is not among them. -/
theorem Inv.not_stored (h : Inv strict w) {call : ℕ} (hg : Gone call key uid w.log) :
    ∃ u before, Event.looked key u :: before <:+ w.log ∧ Event.started call ∈ before ∧ u ≠ some uid ∧
      ∀ p ∈ w.partitions.objects, Event.created p.key p.metadata.uid ∈ before → ¬ (p.key = key ∧ p.metadata.uid = uid) := by
  obtain ⟨u, before, hb, hs, hu⟩ := hg
  refine ⟨u, before, hb, hs, hu, ?_⟩
  rintro p hp hc ⟨rfl, rfl⟩
  exact hu (h.gone _ u before hb p hp rfl hc)

/-- **Only the volume of the handle.**  In every run whose deletions meet the partition with the UID
that was checked, a `DeleteVolume` call asks to delete only the partition with the name and the UID of
its handle.  It returns success only after a look, made since the call was started, at which this
partition was not stored; and if it was created before that look, in particular if it was created before
the call, then it is not stored any more. -/
theorem deleteVolume_exact {c : Pool Call Call.Resp World Job (Except Status Unit)}
    (hc : (machine.guarded ownUID).system.Reachable c) :
    (∀ key uid volumeID ref, Event.requested key uid volumeID ∈ c.world.log →
      VolumeIdentity.parseVolumeHandle volumeID = .ok ref → key = ref.key ∧ uid = ref.uid) ∧
    ∀ call polls volumeID ref, (⟨call, polls, volumeID⟩, .ret (.ok ())) ∈ c.threads →
      VolumeIdentity.parseVolumeHandle volumeID = .ok ref →
      ∃ u before, Event.looked ref.key u :: before <:+ c.world.log ∧ Event.started call ∈ before ∧ u ≠ some ref.uid ∧
        ∀ p ∈ c.world.partitions.objects, Event.created p.key p.metadata.uid ∈ before →
          ¬ (p.key = ref.key ∧ p.metadata.uid = ref.uid) := by
  have hk : (outline True ownUID).Kept c := kept (fun _ _ _ _ h => h) hc
  have hi : Inv True c.world := hk.inv
  refine ⟨fun key uid volumeID ref hm href => hi.requested trivial key uid volumeID hm ref href, ?_⟩
  intro call polls volumeID ref ht href
  have hp : Promise ⟨call, polls, volumeID⟩ (.ok ()) c.world := hk.post ht
  exact hi.not_stored (hp rfl ref href)

end

/-! ### Runs -/

section

attribute [local instance] asciiLib

open VolumeIdentity (sampleHandle)

def samplePartition : NVMePartition where
  metadata := { ns := "ns", name := "vol" }
  spec := { size := 1 }
  status := {}

def sampleReference : VolumeIdentity.Reference := ⟨str "ns", str "vol", str "u1"⟩

def sampleWorld : World := ⟨⟨[], 0⟩, []⟩

def serve : ℕ → List (Act Job Choice) := Act.serve {} 0

def succeeded : Job × Proc (Except Status Unit) → Bool
  | (j, .ret (.ok ())) => j.call = 0 ∧ j.polls = 1 ∧ j.volumeID = sampleHandle
  | _ => false

theorem mem_of_succeeded {ts : List (Job × Proc (Except Status Unit))} (h : ts.any succeeded = true) :
    (⟨0, 1, sampleHandle⟩, .ret (.ok ())) ∈ ts := by
  obtain ⟨⟨⟨call, polls, volumeID⟩, p⟩, ht, hs⟩ := List.any_eq_true.1 h
  cases p with
  | call c k => simp [succeeded] at hs
  | ret r =>
    rcases r with s | _
    · simp [succeeded] at hs
    obtain ⟨rfl, rfl, rfl⟩ := of_decide_eq_true hs
    exact ht

/-- A volume that is deleted. -/
theorem deleteVolume_exact_success : ∃ c, (machine.guarded ownUID).system.Reachable c ∧
    Event.requested sampleReference.key (str "u1") sampleHandle ∈ c.world.log ∧
    VolumeIdentity.parseVolumeHandle sampleHandle = .ok sampleReference ∧
    ∃ u before, Event.looked sampleReference.key u :: before <:+ c.world.log ∧ Event.started 0 ∈ before ∧
      u ≠ some (str "u1") := by
  obtain ⟨c, hc, hp⟩ := Machine.exists_reachable
    (.env { change := .create (str "u1") samplePartition } :: .start ⟨0, 1, sampleHandle⟩ :: serve 4) sampleWorld
    (fun c => c.threads.any succeeded && c.world.log.contains (.requested sampleReference.key (str "u1") sampleHandle))
    (show (machine.guarded ownUID).init sampleWorld from ⟨rfl, rfl⟩) (by decide +kernel)
  simp only [Bool.and_eq_true, List.contains_iff_mem] at hp
  have hparse : VolumeIdentity.parseVolumeHandle sampleHandle = .ok sampleReference := by decide +kernel
  obtain ⟨u, before, hb, hs, hu, -⟩ :=
    (deleteVolume_exact hc).2 0 1 sampleHandle sampleReference (mem_of_succeeded hp.1) hparse
  exact ⟨c, hc, hp.2, hparse, u, before, hb, hs, hu⟩

/-- The call checks the UID of the first partition; then this is deleted, and another one is created
under its name. -/
def lateDelete : List (Act Job Choice) :=
  List.flatten [[.env { change := .create (str "u1") samplePartition }, .start ⟨0, 1, sampleHandle⟩], serve 2,
    [.env { change := .delete samplePartition.key }, .env { change := .create (str "u2") samplePartition }], serve 1]

/-- **A replacement is deleted.** -/
theorem deleteVolume_replacement : ∃ c, machine.system.Reachable c ∧
    Event.requested sampleReference.key (str "u2") sampleHandle ∈ c.world.log ∧
    VolumeIdentity.parseVolumeHandle sampleHandle = .ok sampleReference ∧ str "u2" ≠ sampleReference.uid := by
  obtain ⟨c, hc, hp⟩ := Machine.exists_reachable lateDelete sampleWorld
    (fun c => c.world.log.contains (.requested sampleReference.key (str "u2") sampleHandle))
    (show machine.init sampleWorld from ⟨rfl, rfl⟩) (by decide +kernel)
  exact ⟨c, hc, List.contains_iff_mem.1 hp, by decide +kernel, by decide⟩

end

end Distort.Deletion
