import Distort.Teardown.World

/-!
What every request keeps.

The invariant says that an attachment stays until somebody asks for its deletion, that one that is stored was created
after every look that found none, and, where the run is `strict` (orderly), that none of them carries the fencing
finalizer once the cleanup finalizer of the partition is off.  A `DeleteVolume` call deletes the partition only after
such a look, and the agent deletes attachments, and takes the cleanup finalizer off, only of a partition that is marked,
and the latter only when the attachment is free (`Req`).
-/

namespace Distort.Teardown

open Go Lib Lib.Kube Api Agent Csi

/-! ### Invariant, rely and requirements -/

/-- No attachment carries the fencing finalizer. -/
def Free (w : World) : Prop := ∀ a, w.attachment.cur = some a → Attachment.finalizer ∉ a.metadata.finalizers

/-- Only marked versions of the partition can be shown. -/
def Marked (w : World) : Prop := ∀ q, some q ∈ w.partition.versions → q.metadata.deletionTimestamp = true

/-- A call asked to detach. -/
def Revoked (id : Str) (w : World) : Prop := .deleted id .publish ∈ w.log ∨ .deleted id .unpublish ∈ w.log

/-- Two versions of the partition: marks stay, and what is gone does not come back. -/
def Later (v v' : Option NVMePartition) : Prop :=
  (v = none → v' = none) ∧
    ∀ q, v = some q → q.metadata.deletionTimestamp = true → ∀ q', v' = some q' → q'.metadata.deletionTimestamp = true

theorem Later.refl (v : Option NVMePartition) : Later v v := by
  refine ⟨id, fun q hq hd q' hq' => ?_⟩
  rw [hq] at hq'
  cases hq'
  exact hd

theorem Later.trans {u v v' : Option NVMePartition} (h : Later u v) (h' : Later v v') : Later u v' := by
  refine ⟨fun hu => h'.1 (h.1 hu), fun q hq hd q' hq' => ?_⟩
  cases v with
  | none =>
    rw [h'.1 rfl] at hq'
    cases hq'
  | some p => exact h'.2 p rfl (h.2 q hq hd p rfl) q' hq'

structure Inv (s : Setting) (strict : Bool) (w : World) : Prop where
  named : ∀ q, some q ∈ w.partition.versions → q.key = s.key ∧ q.metadata.uid = s.uid
  order : w.partition.Ordered Later
  live : ∀ q, some q ∈ w.partition.versions → q.metadata.deletionTimestamp = false →
    partitionFinalizer ∈ q.metadata.finalizers
  created : ∀ a, w.attachment.cur = some a → .created a.spec.attachmentID ∈ w.log
  marked : ∀ a, w.attachment.cur = some a → a.metadata.deletionTimestamp = true →
    Revoked a.spec.attachmentID w ∨ closed w = true
  kept : ∀ id, .created id ∈ w.log →
    (∃ a, w.attachment.cur = some a ∧ a.spec.attachmentID = id) ∨ Revoked id w ∨ closed w = true
  since : ∀ a call, w.attachment.cur = some a → .absent call ∈ w.log → interrupted call w.log = true
  clean : strict = true → (∀ q, w.partition.cur = some q → partitionFinalizer ∉ q.metadata.finalizers) → Free w

/-- What a program may count on while others act. -/
structure Rely (strict : Bool) (w w' : World) : Prop where
  closed : closed w = true → closed w' = true
  marked : Marked w → Marked w'
  free : strict = true → Teardown.closed w = true → Free w → Free w'
  log : w.log ⊆ w'.log

theorem Rely.refl (strict : Bool) (w : World) : Rely strict w w := ⟨id, id, fun _ _ => id, List.Subset.refl _⟩

theorem Rely.trans {strict : Bool} {w1 w2 w3 : World} (h : Rely strict w1 w2) (h' : Rely strict w2 w3) :
    Rely strict w1 w3 :=
  ⟨fun hc => h'.closed (h.closed hc), fun hm => h'.marked (h.marked hm),
    fun hs hc hf => h'.free hs (h.closed hc) (h.free hs hc hf), List.Subset.trans h.log h'.log⟩

/-- What has to hold when a program makes a call. -/
def Req (strict : Bool) (j : Job) (c : Call) (w : World) : Prop :=
  match c with
  | .api (.patch .partition base obj) =>
    (partitionFinalizer ∈ obj.metadata.finalizers ∨ obj.metadata.finalizers = base.metadata.finalizers) ∨
      closed w = true ∧ (strict = true → Free w)
  | .api (.delete .partition _) => ∀ call polls volumeID, j = .delete call polls volumeID → .absent call ∈ w.log
  | .api (.delete .attachment _) => j.actor = .publish ∨ j.actor = .unpublish ∨ closed w = true
  | .api (.patch .attachment _ obj) => Attachment.finalizer ∉ obj.metadata.finalizers
  | _ => True

variable {s : Setting} {strict : Bool} {w w' : World}

theorem closed_iff : closed w = true ↔ ∀ q, w.partition.cur = some q → q.metadata.deletionTimestamp = true := by
  unfold closed
  cases w.partition.cur <;> simp

theorem Marked.closed (h : Marked w) : closed w = true :=
  closed_iff.2 fun q hq => h q (hq ▸ Feed.cur_mem _)

theorem interrupted_cons {call : ℕ} {e : Event} {log : List Event} (he : e ≠ .absent call) :
    interrupted call (e :: log) = (log.contains (.absent call) && (e.isCreated || interrupted call log)) := by
  unfold interrupted
  rw [List.contains_cons, List.takeWhile_cons, if_pos (decide_eq_true he), List.any_cons, beq_eq_false_iff_ne.2 he.symm,
    Bool.false_or]
  cases log.contains (.absent call) <;> simp

theorem Revoked.mono {id : Str} (h : Revoked id w) (hl : w.log ⊆ w'.log) : Revoked id w' :=
  h.imp (fun h => hl h) fun h => hl h

/-! ### Writes to the partition -/

variable (h : Inv s strict w)

include h

theorem Inv.storePartition {q : NVMePartition} {v : Option NVMePartition}
    (hq : w.partition.cur = some q) (hv : ∀ q', v = some q' → q'.key = q.key ∧ q'.metadata.uid = q.metadata.uid ∧
      (q.metadata.deletionTimestamp = true → q'.metadata.deletionTimestamp = true) ∧
      (q'.metadata.deletionTimestamp = false → partitionFinalizer ∈ q'.metadata.finalizers))
    (hclean : strict = true → (∀ q', v = some q' → partitionFinalizer ∉ q'.metadata.finalizers) → Free w) :
    Inv s strict (w.setPartition (w.partition.write v)) ∧
      Rely strict w (w.setPartition (w.partition.write v)) := by
  have hmem : some q ∈ w.partition.versions := hq ▸ Feed.cur_mem _
  have hclosed : closed w = true → closed (w.setPartition (w.partition.write v)) = true := by
    intro hc
    exact closed_iff.2 fun q' hq' => (hv q' hq').2.2.1 (closed_iff.1 hc q hq)
  have hver : ∀ q', some q' ∈ (w.partition.write v).versions → some q' ∈ w.partition.versions ∨ v = some q' := by
    intro q' hq'
    rw [Feed.versions_write] at hq'
    exact (List.mem_append.1 hq').imp id fun hl => (List.mem_singleton.1 hl).symm
  refine ⟨⟨fun q' hq' => ?_, ?_, fun q' hq' hd => ?_, h.created, ?_, ?_, h.since, hclean⟩, hclosed, fun hm q' hq' => ?_,
    fun _ _ hf => hf, List.Subset.refl _⟩
  · rcases hver q' hq' with hold | hnew
    · exact h.named q' hold
    · obtain ⟨hk, hu, -, -⟩ := hv q' hnew
      exact ⟨hk.trans (h.named q hmem).1, hu.trans (h.named q hmem).2⟩
  · refine h.order.write Later.refl Later.trans ⟨fun hnone => ?_, fun q1 hq1 hd q' hq' => ?_⟩
    · rw [hq] at hnone
      cases hnone
    · rw [hq] at hq1
      cases hq1
      exact (hv q' hq').2.2.1 hd
  · rcases hver q' hq' with hold | hnew
    · exact h.live q' hold hd
    · exact (hv q' hnew).2.2.2 hd
  · exact fun a ha hd => (h.marked a ha hd).imp id hclosed
  · exact fun name hname => (h.kept name hname).imp id (.imp id hclosed)
  · rcases hver q' hq' with hold | hnew
    · exact hm q' hold
    · exact (hv q' hnew).2.2.1 (hm q hmem)

theorem Inv.clean_of_keeps {q : NVMePartition} {v : Option NVMePartition} (hq : w.partition.cur = some q)
    (hv : partitionFinalizer ∈ q.metadata.finalizers → ∃ q', v = some q' ∧ partitionFinalizer ∈ q'.metadata.finalizers) :
    strict = true → (∀ q', v = some q' → partitionFinalizer ∉ q'.metadata.finalizers) → Free w := by
  intro hs hnone
  refine h.clean hs fun q1 hq1 hf => ?_
  rw [hq] at hq1
  cases hq1
  obtain ⟨q', hq', hf'⟩ := hv hf
  exact hnone q' hq' hf'

theorem Inv.deletePartition :
    Inv s strict (w.onPartition Slot.delete).2 ∧ Rely strict w (w.onPartition Slot.delete).2 := by
  rcases Slot.delete_cases w.partition with ⟨-, heq⟩ | ⟨q, hq, heq⟩
  · simp only [World.onPartition, heq]
    exact ⟨h, .refl _ _⟩
  simp only [World.onPartition, heq]
  refine h.storePartition hq (fun q' hd => ?_) (h.clean_of_keeps hq fun hf => ?_)
  · obtain ⟨-, hmark, -, -, huid, hkey, -, -⟩ := delete_eq_some hd
    exact ⟨hkey, huid, fun _ => hmark, fun hfalse => by cases hmark.symm.trans hfalse⟩
  · cases hd : q.delete with
    | none =>
      rw [delete_eq_none hd] at hf
      cases hf
    | some q' =>
      obtain ⟨-, -, hfs, -⟩ := delete_eq_some hd
      exact ⟨q', rfl, hfs ▸ hf⟩

theorem Inv.writePartition {obj : NVMePartition} (hw : w.change (.write obj) = some w') :
    Inv s strict w' ∧ Rely strict w w' := by
  simp only [World.change] at hw
  cases hq : w.partition.cur with
  | none => simp [hq] at hw
  | some q =>
    simp only [hq, Option.ite_none_right_eq_some, Option.some.injEq] at hw
    obtain ⟨⟨hfs, -⟩, rfl⟩ := hw
    have hkeep : partitionFinalizer ∈ q.metadata.finalizers → partitionFinalizer ∈ obj.metadata.finalizers :=
      fun hf => containsFinalizer_iff.1 (hfs.trans (containsFinalizer_iff.2 hf))
    refine h.storePartition hq (fun q' hq' => ?_) (h.clean_of_keeps hq fun hf => ⟨_, settle_of_mem (hkeep hf), hkeep hf⟩)
    rw [settle_eq_some hq']
    exact ⟨rfl, rfl, id, fun hd => hkeep (h.live q (hq ▸ Feed.cur_mem _) hd)⟩

theorem Inv.patchStatusPartition (base obj : NVMePartition) :
    Inv s strict (w.onPartition (Slot.patchStatus .merge base obj)).2 ∧
      Rely strict w (w.onPartition (Slot.patchStatus .merge base obj)).2 := by
  rcases Slot.patchStatus_cases .merge base obj w.partition with heq | ⟨q, hq, heq⟩
  · simp only [World.onPartition, heq]
    exact ⟨h, .refl _ _⟩
  simp only [World.onPartition, heq]
  refine h.storePartition hq (fun q' hq' => ?_) (h.clean_of_keeps hq fun hf => ⟨_, rfl, hf⟩)
  cases hq'
  exact ⟨rfl, rfl, id, h.live q (hq ▸ Feed.cur_mem _)⟩

theorem Inv.patchPartition {base obj : NVMePartition}
    (hreq : (partitionFinalizer ∈ obj.metadata.finalizers ∨ obj.metadata.finalizers = base.metadata.finalizers) ∨
      closed w = true ∧ (strict = true → Free w)) :
    Inv s strict (w.onPartition (Slot.patch base obj)).2 ∧ Rely strict w (w.onPartition (Slot.patch base obj)).2 := by
  rcases Slot.patch_cases base obj w.partition with ⟨err, heq⟩ | ⟨q, hq, heq⟩
  · simp only [World.onPartition, heq]
    exact ⟨h, .refl _ _⟩
  simp only [World.onPartition, heq]
  have hkeep : partitionFinalizer ∈ obj.metadata.finalizers ∨ obj.metadata.finalizers = base.metadata.finalizers →
      partitionFinalizer ∈ q.metadata.finalizers →
      partitionFinalizer ∈ (Object.patchFinalizers base obj q).metadata.finalizers := by
    intro hobj hf
    simp only [Object.patchFinalizers, Object.setFinalizers, mergeField]
    split
    · exact hf
    · rename_i hne
      exact hobj.elim id fun heq => absurd heq hne
  refine h.storePartition hq (fun q' hq' => ?_) fun hs hnone => ?_
  · rw [settle_eq_some hq']
    refine ⟨rfl, rfl, id, fun hd => ?_⟩
    rcases hreq with hobj | ⟨hc, -⟩
    · exact hkeep hobj (h.live q (hq ▸ Feed.cur_mem _) hd)
    · cases (closed_iff.1 hc q hq).symm.trans hd
  · rcases hreq with hobj | ⟨-, hfree⟩
    · exact h.clean_of_keeps hq (fun hf => ⟨_, settle_of_mem (hkeep hobj hf), hkeep hobj hf⟩) hs hnone
    · exact hfree hs

/-! ### Writes to the attachment -/

theorem Inv.storeAttachment {a : NVMeVolumeAttachment} {v : Option NVMeVolumeAttachment}
    {log : List Event} (ha : w.attachment.cur = some a) (hcases : log = w.log ∨ ∃ id who, log = .deleted id who :: w.log)
    (hgone : (∀ a', v = some a' → a'.metadata.deletionTimestamp = true) →
      a.metadata.deletionTimestamp = true ∨ Revoked a.spec.attachmentID ⟨w.partition, w.attachment.write v, log⟩ ∨
        closed w = true) (hv : ∀ a', v = some a' → a'.spec = a.spec ∧
      (Attachment.finalizer ∈ a'.metadata.finalizers → Attachment.finalizer ∈ a.metadata.finalizers)) :
    Inv s strict ⟨w.partition, w.attachment.write v, log⟩ ∧
      Rely strict w ⟨w.partition, w.attachment.write v, log⟩ := by
  have hlog : w.log ⊆ log := by
    rcases hcases with rfl | ⟨id, who, rfl⟩
    · exact List.Subset.refl _
    · exact List.subset_cons_self _ _
  have hold : ∀ e, (∀ id who, e ≠ .deleted id who) → e ∈ log → e ∈ w.log := by
    rintro e he hmem
    rcases hcases with rfl | ⟨id, who, rfl⟩
    · exact hmem
    · exact (List.mem_cons.1 hmem).resolve_left (he id who)
  have hsince : ∀ call, .absent call ∈ log → interrupted call log = true := by
    intro call hmem
    have hmem' := hold (.absent call) (by simp) hmem
    have hint := h.since a call ha hmem'
    rcases hcases with rfl | ⟨id, who, rfl⟩
    · exact hint
    · have hne : Event.deleted id who ≠ .absent call := nofun
      rw [interrupted_cons hne, hint, Bool.or_true, Bool.and_true]
      exact List.contains_iff_mem.2 hmem'
  have hfree : Free w → Free ⟨w.partition, w.attachment.write v, log⟩ :=
    fun hf a' ha' hmem => hf a ha ((hv a' ha').2 hmem)
  have hrevoked : (∀ a', v = some a' → a'.metadata.deletionTimestamp = true) →
      Revoked a.spec.attachmentID ⟨w.partition, w.attachment.write v, log⟩ ∨ closed w = true := by
    intro hmarked
    rcases hgone hmarked with hd | hr
    · exact (h.marked a ha hd).imp (fun hr => hr.mono hlog) id
    · exact hr
  refine ⟨⟨h.named, h.order, h.live, fun a' ha' => ?_, fun a' ha' hd => ?_, fun name hname => ?_,
    fun _ call _ => hsince call, fun hs hq => ?_⟩, id, id, fun _ _ => hfree, hlog⟩
  · rw [(hv a' ha').1]
    exact hlog (h.created a ha)
  · rw [(hv a' ha').1]
    refine hrevoked fun a1 ha1 => ?_
    rw [show v = some a' from ha'] at ha1
    cases ha1
    exact hd
  · rcases h.kept name (hold (.created name) (by simp) hname) with ⟨a1, ha1, rfl⟩ | hr | hc
    · rw [ha] at ha1
      cases ha1
      cases hv' : v with
      | none => exact .inr (hv' ▸ hrevoked (by simp [hv']))
      | some a' => exact .inl ⟨a', rfl, by rw [(hv a' hv').1]⟩
    · exact .inr (.inl (hr.mono hlog))
    · exact .inr (.inr hc)
  · exact hfree (h.clean hs hq)

theorem Inv.createAttachment (ch : Choice) (obj : NVMeVolumeAttachment)
    (hguard : strict = true → closed w = false) :
    Inv s strict (w.createAttachment ch obj).2 ∧ Rely strict w (w.createAttachment ch obj).2 := by
  unfold World.createAttachment
  split
  · exact ⟨h, .refl _ _⟩
  rename_i hnone
  have heq : (w.onAttachment (Slot.create (obj.admitted ch.uuid 0 {}))).2 =
      w.setAttachment (w.attachment.write (some (obj.admitted ch.uuid 0 {}))) := by
    rcases Slot.create_cases (obj.admitted ch.uuid 0 {}) w.attachment with he | ⟨-, he⟩
    · simp [Slot.create, hnone] at he
    · simp only [World.onAttachment, he]
  rw [heq]
  have hlog : w.log ⊆ .created obj.spec.attachmentID :: w.log := List.subset_cons_self _ _
  refine ⟨⟨h.named, h.order, h.live, fun a ha => ?_, fun a ha hd => ?_, fun name hname => ?_, fun a call _ hmem => ?_,
    fun hs hq => ?_⟩, id, id, fun hs hc _ => ?_, hlog⟩
  · cases ha
    exact List.mem_cons_self
  · cases ha
    cases hd
  · rcases List.mem_cons.1 hname with heq | hold
    · cases heq
      exact .inl ⟨_, rfl, rfl⟩
    rcases h.kept name hold with ⟨a, ha, -⟩ | hr | hc
    · rw [hnone] at ha
      cases ha
    · exact .inr (.inl (hr.mono hlog))
    · exact .inr (.inr hc)
  · have hne : Event.created obj.spec.attachmentID ≠ .absent call := nofun
    refine (interrupted_cons hne).trans ?_
    rw [Event.isCreated, Bool.true_or, Bool.and_true]
    exact List.contains_iff_mem.2 ((List.mem_cons.1 hmem).resolve_left hne.symm)
  · -- the partition is live, so it still has its finalizer
    have hc := hguard hs
    unfold closed at hc
    cases hcur : w.partition.cur with
    | none => simp [hcur] at hc
    | some q =>
      rw [hcur] at hc
      exact absurd (h.live q (hcur ▸ Feed.cur_mem _) hc) (hq q hcur)
  · cases (hguard hs).symm.trans hc

theorem Inv.deleteAttachment {who : Actor}
    (hwho : who = .publish ∨ who = .unpublish ∨ closed w = true) :
    Inv s strict (w.deleteAttachment who).2 ∧ Rely strict w (w.deleteAttachment who).2 := by
  unfold World.deleteAttachment
  split
  · exact ⟨h, .refl _ _⟩
  rename_i a ha
  have heq : (w.onAttachment Slot.delete).2 = ⟨w.partition, w.attachment.write a.delete, w.log⟩ := by
    rcases Slot.delete_cases w.attachment with ⟨hnone, -⟩ | ⟨a', ha', he⟩
    · rw [ha] at hnone
      cases hnone
    rw [ha] at ha'
    cases ha'
    simp only [World.onAttachment, he, World.setAttachment]
  have hv : ∀ a', a.delete = some a' → a'.spec = a.spec ∧
      (Attachment.finalizer ∈ a'.metadata.finalizers → Attachment.finalizer ∈ a.metadata.finalizers) := by
    intro a' hd
    obtain ⟨-, -, hfs, -, -, -, hspec, -⟩ := delete_eq_some hd
    exact ⟨hspec, fun hf => hfs ▸ hf⟩
  split
  · rename_i hd
    rw [heq]
    exact h.storeAttachment ha (.inl rfl) (fun _ => .inl hd) hv
  · simp only [heq, World.note]
    refine h.storeAttachment ha (.inr ⟨_, _, rfl⟩) (fun _ => .inr ?_) hv
    rcases hwho with rfl | rfl | hc
    · exact .inl (.inl List.mem_cons_self)
    · exact .inl (.inr List.mem_cons_self)
    · exact .inr hc

theorem Inv.patchAttachment {base obj : NVMeVolumeAttachment}
    (hreq : Attachment.finalizer ∉ obj.metadata.finalizers) :
    Inv s strict (w.onAttachment (Slot.patch base obj)).2 ∧ Rely strict w (w.onAttachment (Slot.patch base obj)).2 := by
  rcases Slot.patch_cases base obj w.attachment with ⟨err, heq⟩ | ⟨a, ha, heq⟩
  · simp only [World.onAttachment, heq]
    exact ⟨h, .refl _ _⟩
  simp only [World.onAttachment, heq, World.setAttachment]
  refine h.storeAttachment ha (.inl rfl) (fun hmarked => .inl ?_) fun a' ha' => ?_
  · cases hs : (Object.patchFinalizers base obj a).settle with
    | none => exact (settle_eq_none hs).1
    | some a' =>
      have := hmarked a' hs
      rw [settle_eq_some hs] at this
      exact this
  · rw [settle_eq_some ha']
    refine ⟨rfl, fun hf => ?_⟩
    simp only [Object.patchFinalizers, Object.setFinalizers, mergeField] at hf
    split at hf
    · exact hf
    · exact absurd hf hreq

theorem Inv.patchStatusAttachment (base obj : NVMeVolumeAttachment) :
    Inv s strict (w.onAttachment (Slot.patchStatus .merge base obj)).2 ∧
      Rely strict w (w.onAttachment (Slot.patchStatus .merge base obj)).2 := by
  rcases Slot.patchStatus_cases .merge base obj w.attachment with heq | ⟨a, ha, heq⟩
  · simp only [World.onAttachment, heq]
    exact ⟨h, .refl _ _⟩
  simp only [World.onAttachment, heq, World.setAttachment]
  refine h.storeAttachment ha (.inl rfl) (fun hmarked => ?_) fun a' ha' => ?_
  · have hd := hmarked _ rfl
    exact .inl hd
  · cases ha'
    exact ⟨rfl, id⟩

theorem Inv.administer {annotations : List (Str × Str)} {finalizers : List Str}
    (hw : w.change (.administer annotations finalizers) = some w') : Inv s strict w' ∧ Rely strict w w' := by
  simp only [World.change] at hw
  cases ha : w.attachment.cur with
  | none => simp [ha] at hw
  | some a =>
    simp only [ha, Option.ite_none_right_eq_some, Option.some.injEq] at hw
    obtain ⟨⟨hfs, -⟩, rfl⟩ := hw
    refine h.storeAttachment ha (.inl rfl) (fun hmarked => .inl ?_) fun a' ha' => ?_
    · cases hs : Object.settle { a with metadata := { a.metadata with annotations, finalizers } } with
      | none => exact (settle_eq_none hs).1
      | some a' =>
        have := hmarked a' hs
        rw [settle_eq_some hs] at this
        exact this
    · rw [settle_eq_some ha']
      exact ⟨rfl, fun hf => containsFinalizer_iff.1 (hfs ▸ containsFinalizer_iff.2 hf)⟩

/-! ### Reads of the cache -/

theorem Inv.readPartition (skip : ℕ) :
    Inv s strict (w.onPartition (Slot.readCached skip)).2 ∧ Rely strict w (w.onPartition (Slot.readCached skip)).2 ∧
      ∀ q, (w.onPartition (Slot.readCached skip)).1 = .ok q → q.key = s.key ∧ q.metadata.uid = s.uid ∧
        (q.metadata.deletionTimestamp = false → partitionFinalizer ∈ q.metadata.finalizers) ∧
        (q.metadata.deletionTimestamp = true → Marked (w.onPartition (Slot.readCached skip)).2) := by
  obtain ⟨v, hshows, hr⟩ := Slot.readCached_shows skip w.partition
  simp only [World.onPartition, hr]
  generalize (Slot.readCached skip w.partition).2 = f' at hshows
  have hsub : ∀ q, some q ∈ f'.versions → some q ∈ w.partition.versions := fun q hq => hshows.suffix.subset hq
  have hcur : f'.cur = w.partition.cur := hshows.cur_eq
  have hclosed : closed (w.setPartition f') = closed w := by
    unfold closed World.setPartition
    rw [hcur]
  refine ⟨⟨fun q hq => h.named q (hsub q hq), h.order.shows hshows, fun q hq => h.live q (hsub q hq), h.created,
    fun a ha hd => ?_, fun name hname => ?_, h.since, fun hs hq => ?_⟩,
    ⟨fun hc => hclosed.trans hc, fun hm q hq => hm q (hsub q hq), fun _ _ => id, List.Subset.refl _⟩, fun q hq => ?_⟩
  · rw [hclosed]
    exact h.marked a ha hd
  · rw [hclosed]
    exact h.kept name hname
  · refine h.clean hs fun q hq' => hq q ?_
    rw [← hcur] at hq'
    exact hq'
  · cases v with
    | none => cases hq
    | some p =>
      cases hq
      have hmem := hshows.mem
      refine ⟨(h.named q hmem).1, (h.named q hmem).2, h.live q hmem, fun hd q' hq' => ?_⟩
      exact (h.order.shown Later.refl hshows hq').2 q rfl hd q' rfl

theorem Inv.shownAttachment {v : Option NVMeVolumeAttachment}
    {f' : Slot NVMeVolumeAttachmentSpec NVMeVolumeAttachmentStatus} (hshows : w.attachment.Shows v f') :
    Inv s strict (w.setAttachment f') ∧ Rely strict w (w.setAttachment f') := by
  have hcur : f'.cur = w.attachment.cur := hshows.cur_eq
  have hfree : Free w → Free (w.setAttachment f') := fun hf a ha => hf a (hcur ▸ ha)
  refine ⟨⟨h.named, h.order, h.live, fun a ha => h.created a (hcur ▸ ha), fun a ha => h.marked a (hcur ▸ ha),
    fun name hname => ?_, fun a call ha => h.since a call (hcur ▸ ha), fun hs hq => hfree (h.clean hs hq)⟩, id, id,
    fun _ _ => hfree, List.Subset.refl _⟩
  rcases h.kept name hname with ⟨a, ha, hid⟩ | hr
  · exact .inl ⟨a, hcur.trans ha, hid⟩
  · exact .inr hr

theorem Inv.readAttachment (skip : ℕ) :
    Inv s strict (w.onAttachment (Slot.readCached skip)).2 ∧ Rely strict w (w.onAttachment (Slot.readCached skip)).2 := by
  obtain ⟨v, hshows, -⟩ := Slot.readCached_shows skip w.attachment
  exact h.shownAttachment hshows

theorem Inv.looked (j : Job) : Inv s strict (w.looked j) ∧ Rely strict w (w.looked j) := by
  unfold World.looked
  split
  · split
    · rename_i call polls volumeID hnone
      have hcur : w.attachment.cur = none := Option.isNone_iff_eq_none.1 hnone
      have hlog : w.log ⊆ .absent call :: w.log := List.subset_cons_self _ _
      refine ⟨⟨h.named, h.order, h.live, fun a ha => ?_, fun a ha => ?_, fun name hname => ?_, fun a _ ha => ?_, h.clean⟩,
        id, id, fun _ _ => id, hlog⟩
      · exact nomatch hcur.symm.trans ha
      · exact nomatch hcur.symm.trans ha
      · exact (h.kept name ((List.mem_cons.1 hname).resolve_left nofun)).imp_right (.imp_left fun hr => hr.mono hlog)
      · exact nomatch hcur.symm.trans ha
    · exact ⟨h, .refl _ _⟩
  · exact ⟨h, .refl _ _⟩

theorem Inv.change {ch : Change} (hw : w.change ch = some w') : Inv s strict w' ∧ Rely strict w w' := by
  cases ch with
  | write obj => exact h.writePartition hw
  | delete =>
    cases hw
    exact h.deletePartition
  | administer annotations finalizers => exact h.administer hw
  | collect =>
    simp only [World.change, Option.ite_none_right_eq_some, Option.some.injEq] at hw
    obtain ⟨hnone, rfl⟩ := hw
    exact h.deleteAttachment (.inr (.inr (closed_iff.2 fun q hq => by rw [hnone] at hq; cases hq)))
  | sync =>
    cases hw
    exact h.shownAttachment w.attachment.latest_shows

variable [StdLib]

/-- **Whatever a call does keeps the invariant**, if it is made when it may be. -/
theorem answer_kept {ch : Choice} {j : Job} {c : Call} {r : c.Resp}
    (hguard : strict = true → orderly j c w = true) (hreq : Req strict j c w)
    (ha : answer s ch j c w = some (r, w')) : Inv s strict w' ∧ Rely strict w w' := by
  have hmove : ∀ w1, Inv s strict w1 ∧ Rely strict w w1 → (w' = w ∨ w' = w1) → Inv s strict w' ∧ Rely strict w w' := by
    rintro w1 hw1 (rfl | rfl)
    · exact ⟨h, .refl _ _⟩
    · exact hw1
  have hsame : w' = w → Inv s strict w' ∧ Rely strict w w' := by
    rintro rfl
    exact ⟨h, .refl _ _⟩
  unfold answer at ha
  split at ha
  · exact hmove _ ⟨h, .refl _ _⟩ (Fate.answer_state ha)
  · exact hmove _ ⟨(h.readPartition _).1, (h.readPartition _).2.1⟩
      (Fate.answer_state (Option.ite_none_right_eq_some.1 ha).2)
  · exact hmove _ ⟨h, .refl _ _⟩ (Fate.answer_state ha)
  · exact hmove _ h.deletePartition (Fate.answer_state (Option.ite_none_right_eq_some.1 ha).2)
  · exact hmove _ (h.patchPartition hreq) (Fate.answer_state (Option.ite_none_right_eq_some.1 ha).2)
  · exact hmove _ (h.patchStatusPartition _ _) (Fate.answer_state (Option.ite_none_right_eq_some.1 ha).2)
  · exact hmove _ (h.looked j) (Fate.answer_state (Option.ite_none_right_eq_some.1 ha).2)
  · exact hmove _ (h.readAttachment _) (Fate.answer_state (Option.ite_none_right_eq_some.1 ha).2)
  · exact hmove _ (h.createAttachment ch _ fun hs => by simpa [orderly] using hguard hs)
      (Fate.answer_state (Option.ite_none_right_eq_some.1 ha).2)
  · exact hmove _ (h.deleteAttachment hreq) (Fate.answer_state (Option.ite_none_right_eq_some.1 ha).2)
  · exact hmove _ (h.patchAttachment hreq) (Fate.answer_state (Option.ite_none_right_eq_some.1 ha).2)
  · exact hmove _ (h.patchStatusAttachment _ _) (Fate.answer_state (Option.ite_none_right_eq_some.1 ha).2)
  · exact hsame (Prod.mk.inj (Option.some.inj ha)).2.symm
  · exact hsame (Prod.mk.inj (Option.some.inj ha)).2.symm
  · cases ha
  · cases ha
  · cases ha
  · cases ha
  · obtain ⟨_, -, heq⟩ := Option.map_eq_some_iff.1 ha
    exact hsame (Prod.mk.inj heq).2.symm

end Distort.Teardown
