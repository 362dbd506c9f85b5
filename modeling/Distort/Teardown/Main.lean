import Distort.Manager.Placement
import Distort.Teardown.Invariant

/-!
What is true in every run of one volume.

* `detached_before_deletion` — where no attachment is created between the check of a `DeleteVolume` call and its
  deletion of the live partition, every attachment that a publish has returned was asked to be detached before;
* `deleted_while_published` — a call deletes the partition of an attachment that was created after its check;
* `no_orphan` — in every orderly run, no attachment carries the fencing finalizer once the partition is gone;
* `orphaned` — a publish creates an attachment after the agent has released the one before.
-/

namespace Distort.Teardown

open Go Lib Lib.Kube Api Agent Csi Proc

variable {pool : Pool Call Call.Resp World Job Result} {volumeID : Str}

section

variable [StdLib] {s : Setting} {strict : Bool} {w : World} {j : Job}

/-! ### Outline -/

/-- The condition applies to strict runs. -/
def guard (strict : Bool) (j : Job) (c : Call) (w : World) : Bool := !strict || orderly j c w

/-- A publish returns an attachment that was created. -/
def Post (r : Result) (w : World) : Prop :=
  match r with
  | .publish (.ok resp) => .created resp.attachmentID ∈ w.log
  | _ => True

def outline (s : Setting) (strict : Bool) : Outline ((machine s).guarded (guard strict)).system where
  Inv := Inv s strict
  Rely _ := Rely strict
  Guar _ := Rely strict
  Req := Req strict
  Post _ := Post
  rely_refl _ := .refl strict
  rely_trans _ := .trans
  init := by
    rintro w ⟨ha, hl, p, hp, hk, hu, hd, hf⟩
    have hver : ∀ q, some q ∈ w.partition.versions → q = p := by
      intro q hq
      rw [hp] at hq
      exact Option.some.inj (List.mem_singleton.1 hq)
    refine ⟨fun q hq => ?_, ?_, fun q hq _ => ?_, fun a hcur => ?_, fun a hcur => ?_, fun id hid => ?_, fun a _ hcur => ?_,
      fun _ hq => ?_⟩
    · rw [hver q hq]
      exact ⟨hk, hu⟩
    · rw [hp]
      exact List.pairwise_singleton _ _
    · rw [hver q hq]
      exact hf
    · rw [ha] at hcur
      cases hcur
    · rw [ha] at hcur
      cases hcur
    · rw [hl] at hid
      cases hid
    · rw [ha] at hcur
      cases hcur
    · exact absurd hf (hq p (by rw [hp]))
  env := by
    rintro w w' hi ⟨ch, hw⟩
    obtain ⟨hi', hr⟩ := hi.change hw
    exact ⟨hi', fun _ => hr⟩
  guar _ _ _ _ _ _ _ := id

omit [StdLib] in
theorem orderly_of_guard {c : Call} (h : guard strict j c w = true) (hs : strict = true) : orderly j c w = true := by
  simpa [guard, hs] using h

theorem keeps : (outline s strict).Closed := fun hi hreq hg ha => answer_kept hi (orderly_of_guard hg) hreq ha

/-- A call that needs nothing, whatever the state is. -/
def Harmless (strict : Bool) (j : Job) (c : Call) : Prop := ∀ w, Req strict j c w

theorem harmless_safe {α : Type} {p : Proc α} {I : World → Prop} (hp : p.Only (Harmless strict j)) (hw : I w)
    (hI : ∀ w₁ w₂, I w₁ → Rely strict w₁ w₂ → I w₂) : (outline s strict).Safe j (fun _ => I) p w :=
  keeps.only hp hw hI (fun _ w₁ hc _ => hc w₁) fun _ _ w₁ _ w₂ _ _ h _ _ hr => hI w₁ w₂ h hr

theorem harmless_complies {α : Type} {p : Proc α} (hp : p.Only (Harmless strict j)) : (outline s strict).Complies j p w :=
  keeps.complies hp fun _ w₁ hc => hc w₁

section

omit [StdLib]

theorem harmless_of_looks {c : Call} (hc : looks c = true) : Harmless strict j c := by
  unfold looks at hc
  split at hc <;> first | exact fun _ => trivial | cases hc

theorem harmless_of_looksUp {c : Call} (hc : looksUp c = true) : Harmless strict j c := by
  unfold looksUp at hc
  split at hc <;> first | exact fun _ => trivial | cases hc

theorem harmless_of_followsAttachment {c : Call} (hc : followsAttachment c = true) : Harmless strict j c := by
  unfold followsAttachment at hc
  split at hc
  · exact fun _ => trivial
  · exact fun _ => trivial
  · intro w
    obtain rfl := of_decide_eq_true hc
    simp [Req, Object.removeFinalizer, Object.setFinalizers]
  · cases hc

end

/-! ### Publish -/

/-- The attachment was created at some time. -/
def Created (a : NVMeVolumeAttachment) (w : World) : Prop := .created a.spec.attachmentID ∈ w.log

variable {a : NVMeVolumeAttachment} {w₁ w₂ : World}

omit [StdLib] in
theorem Created.mono (h : Created a w₁) (hr : Rely strict w₁ w₂) : Created a w₂ := hr.log h

theorem getAttachment_safe (key : Key) : (outline s strict).Safe j
    (fun r w₁ => ∀ a, r = .ok a → Created a w₁) (get .attachment .api key) w := by
  refine keeps.call (fun _ _ _ => trivial) (fun r w₁ w₂ h hr a ha => (h a ha).mono hr) ?_
  rintro ch w₁ r w₂ - hi - ha - hrely a rfl
  obtain ⟨-, ha⟩ := Option.ite_none_right_eq_some.1 ha
  obtain ⟨hfound, rfl⟩ := Prod.mk.inj (Fate.answer_ok ha)
  exact hrely.log (hi.created a (found_eq_ok hfound))

theorem createAttachment_safe (obj : NVMeVolumeAttachment) : (outline s strict).Safe j
    (fun r w₁ => ∀ a, r = .ok a → Created a w₁) (create .attachment obj) w := by
  refine keeps.call (fun _ _ _ => trivial) (fun r w₁ w₂ h hr a ha => (h a ha).mono hr) ?_
  rintro ch w₁ r w₂ - hi - ha - - a rfl
  obtain ⟨-, ha⟩ := Option.ite_none_right_eq_some.1 ha
  have hserved := Fate.answer_ok ha
  unfold World.createAttachment at hserved
  split at hserved
  · cases hserved
  rename_i hnone
  obtain ⟨hr, rfl⟩ := Prod.mk.inj hserved
  simp only [World.onAttachment, Slot.create, hnone] at hr
  cases hr
  exact List.mem_cons_self

theorem publishExisting_safe (polls : ℕ) (req : PublishRequest) (partition : NVMePartition)
    {again : Proc (Except Status PublishResponse)} {existing : NVMeVolumeAttachment} (hj : j.actor = .publish)
    (hagain : ∀ w, (outline s strict).Safe j (fun r => Post (.publish r)) again w) (hw : Created existing w) :
    (outline s strict).Safe j (fun r => Post (.publish r)) (publishExisting polls req partition again existing) w := by
  have hwait : ∀ {msg : String} {w : World}, (outline s strict).Safe j (fun r => Post (.publish r))
      ((pollAttachment (attachmentKey partition) (fun current => .ok current.isNone) msg polls).check fail
        fun _ => again) w := by
    intro msg w
    exact .andThen (harmless_complies (pollAttachment_only (fun _ => harmless_of_looks) _ _ _ _))
      (fun _ _ _ => Terms.Safe.ret fun _ _ _ => trivial) fun _ w₁ _ => hagain w₁
  unfold publishExisting
  simp only
  split
  · exact .ret fun _ _ _ => trivial
  split
  · exact hwait
  split
  · split
    · exact .ret fun _ _ _ => trivial
    have hdelete : (ignoringNotFound (delete .attachment existing)).Only (Harmless strict j) :=
      Prog.Only.next (only_op fun _ => .inl hj) only_done
    exact .andThen (harmless_complies hdelete) (fun _ _ _ => .ret fun _ _ _ => trivial) fun _ _ _ => hwait
  · exact .andThen (harmless_safe (pollAttachment_only (fun _ => harmless_of_looks) _ _ _ _) hw fun _ _ h hr => h.mono hr)
      (fun _ _ _ => .ret fun _ _ _ => trivial) fun _ _ h1 => .ret fun w₂ hr _ => hr.log h1

theorem publishLoop_safe (polls : ℕ) (req : PublishRequest) (partition : NVMePartition) (hj : j.actor = .publish)
    (rounds : ℕ) (w : World) :
    (outline s strict).Safe j (fun r => Post (.publish r)) (publishLoop polls req partition rounds) w := by
  induction rounds generalizing w with
  | zero => exact .call (fun _ _ _ => trivial) fun _ r => nomatch r
  | succ n ih =>
    refine .check ((getAttachment_safe _).conseq fun r w₁ _ h1 => ?_)
    cases r with
    | ok existing => exact publishExisting_safe polls req partition hj ih (h1 existing rfl)
    | error err =>
      simp only
      split
      · have huuid : newUUID.Only (Harmless strict j) := only_op fun _ => trivial
        refine .bind ((harmless_complies huuid).conseq fun id w₂ _ _ => ?_)
        refine .check ((createAttachment_safe _).conseq fun r w3 _ h3 => ?_)
        cases r with
        | ok existing => exact publishExisting_safe polls req partition hj ih (h3 existing rfl)
        | error err =>
          simp only
          split
          · exact ih w3
          · exact .ret fun _ _ _ => trivial
      · exact .ret fun _ _ _ => trivial

theorem publish_safe (rounds polls : ℕ) (req : PublishRequest) (hj : j.actor = .publish) (w : World) :
    (outline s strict).Safe j (fun r => Post (.publish r)) (controllerPublishVolume rounds polls req) w := by
  unfold controllerPublishVolume
  split
  · exact .ret fun _ _ _ => trivial
  split
  · exact .ret fun _ _ _ => trivial
  refine .andThen (harmless_complies (partitionForVolumeHandle_only (fun _ => harmless_of_looks) _))
    (fun _ _ _ => .ret fun _ _ _ => trivial) fun partition w₁ _ => ?_
  split
  · exact .ret fun _ _ _ => trivial
  · exact publishLoop_safe polls req partition hj rounds w₁

/-! ### The pass -/

/-- What a pass for a deletion counts on once the attachment is released. -/
def Released (strict : Bool) (w : World) : Prop := Marked w ∧ (strict = true → Free w)

omit [StdLib] in
theorem Released.mono (h : Released strict w₁) (hr : Rely strict w₁ w₂) : Released strict w₂ :=
  ⟨hr.marked h.1, fun hs => hr.free hs h.1.closed (h.2 hs)⟩

theorem readAttachment_safe (key : Key) (hw : Marked w) : (outline s strict).Safe j
    (fun r w₁ => Marked w₁ ∧ (strict = true → (∀ err, r = .error err → err.isNotFound = true → Free w₁) ∧
      ∀ a, r = .ok a → Attachment.finalizer ∉ a.metadata.finalizers → Free w₁)) (get .attachment .cache key) w := by
  refine keeps.call (fun _ _ _ => trivial) ?_ ?_
  · rintro r w₁ w₂ ⟨hm, hr⟩ hrely
    refine ⟨hrely.marked hm, fun hs => ⟨fun err he hn => ?_, fun a ha hf => ?_⟩⟩
    · exact hrely.free hs hm.closed ((hr hs).1 err he hn)
    · exact hrely.free hs hm.closed ((hr hs).2 a ha hf)
  · intro ch w₁ r w₂ hrely hi hguard ha hi2 hrely2
    have hm := hrely.marked hw
    obtain ⟨-, ha⟩ := Option.ite_none_right_eq_some.1 ha
    refine ⟨hrely2.marked hm, fun hs => ?_⟩
    have hold : w₁.attachment.older = [] := by simpa [orderly, hm.closed] using orderly_of_guard hguard hs
    have hview : Slot.readCached ch.skip w₁.attachment = (found w₁.attachment.cur, w₁.attachment.latest) := by
      simp [Slot.readCached, Feed.view, hold]
    have hfree : (∀ a, w₁.attachment.cur = some a → Attachment.finalizer ∉ a.metadata.finalizers) → Free w₂ :=
      fun h => hrely2.free hs hm.closed h
    refine ⟨fun err he hn => hfree fun a hcur => ?_, fun a he hf => hfree fun a' hcur => ?_⟩
    · subst he
      have hserved := Fate.answer_notFound ha hn
      simp only [World.onAttachment, hview, hcur, found] at hserved
      cases hserved
    · subst he
      have hserved := Fate.answer_ok ha
      simp only [World.onAttachment, hview, hcur, found] at hserved
      cases hserved
      exact hf

omit [StdLib] in
theorem free_of_patch {r : NVMeVolumeAttachment} (hf : Attachment.finalizer ∈ a.metadata.finalizers)
    (h : w₁.onAttachment (Slot.patch a (a.removeFinalizer Attachment.finalizer)) = (.ok r, w₂)) : Free w₂ := by
  have hne : (a.removeFinalizer Attachment.finalizer).metadata.finalizers ≠ a.metadata.finalizers := by
    intro heq
    rw [← heq] at hf
    simp [Object.removeFinalizer, Object.setFinalizers] at hf
  rcases Slot.patch_cases a (a.removeFinalizer Attachment.finalizer) w₁.attachment with ⟨err, heq⟩ | ⟨o, -, heq⟩
  · simp only [World.onAttachment, heq] at h
    cases h
  simp only [World.onAttachment, heq] at h
  cases h
  intro a' ha'
  rw [settle_eq_some ha']
  simp [Object.patchFinalizers, Object.setFinalizers, mergeField, hne]
  simp [Object.removeFinalizer, Object.setFinalizers]

/-- The attachment is released if that succeeds. -/
def Releases (strict : Bool) (r : Except Err Unit) (w : World) : Prop := Marked w ∧ (r = .ok () → Released strict w)

theorem releaseFinalizer_safe (hw : Marked w)
    (hfree : strict = true → Attachment.finalizer ∉ a.metadata.finalizers → Free w) :
    (outline s strict).Safe j (Releases strict) (releaseFinalizer a) w := by
  unfold releaseFinalizer
  split
  · rename_i hf
    have hpatch : (outline s strict).Safe j (fun r w₁ => Marked w₁ ∧ ∀ a', r = .ok a' → Released strict w₁)
        (patch .attachment a (a.removeFinalizer Attachment.finalizer)) w := by
      refine keeps.call (fun w₁ _ _ => ?_) ?_ ?_
      · simp [outline, Req, Object.removeFinalizer, Object.setFinalizers]
      · exact fun r w₁ w₂ h hr => ⟨hr.marked h.1, fun a' ha' => (h.2 a' ha').mono hr⟩
      · intro ch w₁ r w₂ hrely _ _ ha _ hrely2
        have hm := hrely2.marked (hrely.marked hw)
        refine ⟨hm, fun a' hr' => ⟨hm, fun _ => ?_⟩⟩
        subst hr'
        exact free_of_patch (containsFinalizer_iff.1 hf) (Fate.answer_ok (Option.ite_none_right_eq_some.1 ha).2)
    exact .andThen hpatch (fun _ _ h1 => .ret fun w₂ hr _ => ⟨hr.marked h1.1, by rintro ⟨⟩⟩)
        fun a' _ h1 => .ret fun w₂ hr _ => ⟨hr.marked h1.1, fun _ => (h1.2 a' rfl).mono hr⟩
  · rename_i hf
    refine .ret fun w₁ hr _ => ⟨hr.marked hw, fun _ => Released.mono ⟨hw, fun hs => ?_⟩ hr⟩
    exact hfree hs fun hmem => hf (containsFinalizer_iff.2 hmem)

/-- **After the attachment is released, none carries the fencing finalizer any more.** -/
theorem releaseAttachmentAfterUnexport_safe (partition : NVMePartition) (hw : Marked w) :
    (outline s strict).Safe j (Releases strict) (releaseAttachmentAfterUnexport partition) w := by
  have hended : ∀ {w₁ : World} {err : Err}, Marked w₁ → (outline s strict).Safe j (Releases strict) (fail err) w₁ :=
    fun hm => Terms.Safe.ret fun w₂ hr _ => ⟨hr.marked hm, by rintro ⟨⟩⟩
  have hreleased : ∀ {w₁ : World}, Released strict w₁ → (outline s strict).Safe j (Releases strict) (done ()) w₁ :=
    fun h => Terms.Safe.ret fun w₂ hr _ => ⟨hr.marked h.1, fun _ => h.mono hr⟩
  unfold releaseAttachmentAfterUnexport attachmentForPartition
  refine .check (Terms.Safe.check ((readAttachment_safe _ hw).conseq fun r w₁ _ h1 => ?_))
  obtain ⟨hm1, hr1⟩ := h1
  rcases r with err | a
  · simp only
    split
    · rename_i hn
      exact .ret fun w₂ hr _ => hreleased (Released.mono ⟨hm1, fun hs => (hr1 hs).1 err rfl hn⟩ hr)
    · exact .ret fun w₂ hr _ => hended (hr.marked hm1)
  refine .ret fun w₂ hr _ => ?_
  have hm2 := hr.marked hm1
  simp only
  split
  · refine releaseFinalizer_safe hm2 fun hs hf => ?_
    exact hr.free hs hm1.closed ((hr1 hs).2 a rfl hf)
  have hdelete : (outline s strict).Safe j (fun _ => Marked) (ignoringNotFound (delete .attachment a)) w₂ := by
    have hcall : (outline s strict).Safe j (fun _ => Marked) (delete .attachment a) w₂ := by
      refine keeps.call (fun w3 hr3 _ => .inr (.inr (hr3.marked hm2).closed)) (fun _ _ _ h hr => hr.marked h) ?_
      intro _ w3 _ w4 hr3 _ _ _ _ hr4
      exact hr4.marked (hr3.marked hm2)
    exact .andThen hcall (fun _ _ h3 => .keep h3 fun _ _ h hr => hr.marked h) fun _ _ h3 => .keep h3 fun _ _ h hr => hr.marked h
  refine .andThen hdelete (fun _ _ h3 => hended h3) fun _ w3 h3 => ?_
  refine .check ((readAttachment_safe _ h3).conseq fun r w4 _ h4 => ?_)
  obtain ⟨hm4, hr4⟩ := h4
  cases r with
  | error err =>
    simp only [Err.ignoreNotFound]
    split
    · rename_i hn
      exact hreleased ⟨hm4, fun hs => (hr4 hs).1 err rfl hn⟩
    · exact hended hm4
  | ok latest => exact releaseFinalizer_safe hm4 fun hs hf => (hr4 hs).2 latest rfl hf

theorem reconcilePartitionDeletion_safe {partition : NVMePartition} {resolved : ResolvedPartitionPlugins}
    (nodeName : Str) (key : Key) (externalID : Str) (hplugins : MethodsOnly (Harmless strict j) resolved)
    (hw : Marked w) : (outline s strict).Complies j
      (reconcilePartitionDeletion nodeName key partition resolved externalID) w := by
  unfold reconcilePartitionDeletion
  split
  · exact .ended
  refine .next (harmless_safe (hplugins.unexportVolume _) hw fun _ _ h hr => hr.marked h) fun _ w₁ h1 => ?_
  refine .next (releaseAttachmentAfterUnexport_safe partition h1) fun _ w₂ h2 => ?_
  have hdelete : (deleteBackendVolume nodeName partition resolved externalID).Only (Harmless strict j) :=
    deleteBackendVolume_only (fun _ => harmless_of_looksUp) (fun _ _ _ => trivial) hplugins.deleteVolume nodeName partition _
  refine .next (harmless_safe hdelete (h2.2 rfl) fun _ _ h hr => h.mono hr) fun _ w3 h3 => ?_
  have hget : (get .partition .cache key).Only (Harmless strict j) := only_op fun _ => trivial
  refine .andThen (harmless_safe hget h3 fun _ _ h hr => h.mono hr) (fun _ _ _ => ?_) fun latest w4 h4 => ?_
  · split <;> exact .ended
  have hpatch : (outline s strict).Complies j
      (patch .partition latest (latest.removeFinalizer partitionFinalizer)) w4 := by
    refine keeps.op fun w5 hr _ => .inr ?_
    have h5 := h4.mono hr
    exact ⟨h5.1.closed, h5.2⟩
  exact .next hpatch fun _ _ _ => .ended

theorem reconcile_safe (w : World) : (outline s strict).Complies j (reconcile .atomic s.nodeName s.key) w := by
  have hget : (outline s strict).Safe j (fun r w₁ => ∀ q, r = .ok q →
      (q.metadata.deletionTimestamp = false → partitionFinalizer ∈ q.metadata.finalizers) ∧
      (q.metadata.deletionTimestamp = true → Marked w₁)) (get .partition .cache s.key) w := by
    refine keeps.call (fun _ _ _ => trivial) (fun r w₁ w₂ h hr q hq => ?_) ?_
    · exact ⟨(h q hq).1, fun hd => hr.marked ((h q hq).2 hd)⟩
    · rintro ch w₁ r w₂ - hi - ha - - q rfl
      have hserved := Fate.answer_ok (Option.ite_none_right_eq_some.1 ha).2
      obtain ⟨-, -, hread⟩ := hi.readPartition ch.skip
      rw [hserved] at hread
      obtain ⟨-, -, hlive, hmarked⟩ := hread q rfl
      exact ⟨hlive, hmarked⟩
  refine .andThen hget (fun _ _ _ => ?_) fun partition w₁ h1 => ?_
  · split <;> exact .ended
  obtain ⟨hlive, hmarked⟩ := h1 partition rfl
  have hstatus : ∀ base obj : NVMePartition, obj.status.volumeID = base.status.volumeID →
      Harmless strict j (.api (.patchStatus .partition base obj)) := fun _ _ _ _ => trivial
  have hfailed : ∀ (reason : Str) (err : Err), (outline s strict).Complies j
      (terminalProvisioningFailure partition reason err) w₁ := fun reason err =>
    harmless_complies (recordProvisioningFailure_only (fun _ => harmless_of_looksUp) (minor_only hstatus) partition reason
      err true)
  simp only
  split
  · exact .ended
  split
  · exact .ended
  split
  · split
    · exact hfailed _ _
    · exact .ended
  rename_i resolved hres
  have hplugins : PluginsOnly (Harmless strict j) resolved := pluginsOnly_of_resolve (fun _ _ => trivial) hres
  split
  · rename_i hd
    exact reconcilePartitionDeletion_safe s.nodeName s.key _ hplugins.toMethodsOnly (hmarked hd)
  rename_i hd
  have hf : partition.containsFinalizer partitionFinalizer = true :=
    containsFinalizer_iff.2 (hlive (Bool.not_eq_true _ ▸ hd))
  have hid : ∀ externalID volumeID, (updatePartitionStatus s.key
      fun status => { status with externalID, volumeID }).Only (Harmless strict j) := fun _ _ =>
    updatePartitionStatus_only (fun _ => harmless_of_looksUp) (fun _ _ => trivial) s.key
  exact harmless_complies (reconcileLive_only (fun _ => harmless_of_looksUp) (fun _ _ _ => trivial) hstatus hplugins
    (fun _ => harmless_of_followsAttachment) (hid _ _) (fun q => addPartitionFinalizer_only hf) s.nodeName)

/-! ### Deletion -/

/-- The check of a `DeleteVolume` call: if it finds nothing, then there was nothing. -/
theorem checkAttachment_safe {call polls : ℕ} (key : Key) : (outline s strict).Safe (.delete call polls volumeID)
      (fun r w₁ => ∀ err, r = .error err → err.isNotFound = true → .absent call ∈ w₁.log) (get .attachment .api key) w := by
  refine keeps.call (fun _ _ _ => trivial) (fun r w₁ w₂ h hr err he hn => hr.log (h err he hn)) ?_
  rintro ch w₁ r w₂ - - - ha - - err rfl hn
  obtain ⟨-, ha⟩ := Option.ite_none_right_eq_some.1 ha
  obtain ⟨hfound, rfl⟩ := Prod.mk.inj (Fate.answer_notFound ha hn)
  cases hcur : w₁.attachment.cur with
  | some a =>
    rw [hcur] at hfound
    cases hfound
  | none =>
    simp only [World.looked, hcur, Option.isNone_none, if_true]
    exact List.mem_cons_self

theorem deletePartitionAndWait_safe {call polls : ℕ} (n : ℕ) (partition : NVMePartition) :
    (outline s strict).Complies (.delete call polls volumeID) (deletePartitionAndWait n partition) w := by
  refine .bind ((checkAttachment_safe _).conseq fun r w₁ _ h1 => ?_)
  rcases r with err | a
  swap
  · exact .ended
  simp only
  split
  · exact .ended
  rename_i hn
  have hchecked := h1 err rfl (by simpa using hn)
  have hdelete : (outline s strict).Complies (.delete call polls volumeID)
      (ignoringNotFound (delete .partition partition)) w₁ := by
    refine .next (keeps.op fun w₂ hr _ => ?_) fun _ _ _ => .ended
    rintro _ _ _ ⟨⟩
    exact hr.log hchecked
  refine .next hdelete fun _ w₂ _ => ?_
  have hwait : (waitForPartitionDeleted partition.key partition.metadata.uid n).Only
      (Harmless strict (.delete call polls volumeID)) := waitForPartitionDeleted_only (fun _ => harmless_of_looks) _ _ n
  exact .next (harmless_complies hwait) fun _ _ _ => .ended

/-- **A `DeleteVolume` call deletes a partition only after it has looked for an attachment.** -/
theorem deleteVolume_safe {call polls : ℕ} (w : World) :
    (outline s strict).Complies (.delete call polls volumeID) (deleteVolume polls volumeID) w := by
  have hthen : ∀ p w₁, (outline s strict).Complies (.delete call polls volumeID)
      ((deletePartitionAndWait polls p).check fail done) w₁ := fun p w₁ =>
    .next (deletePartitionAndWait_safe polls p) fun _ _ _ => .ended
  have hread : ∀ {c : Call} {w₁ : World}, looks c = true ∨ c = .api (.list .partition .api) →
      (outline s strict).Complies (.delete call polls volumeID) (.call c .ret) w₁ := by
    intro c w₁ hc
    refine harmless_complies (only_op ?_)
    rcases hc with hc | rfl
    · exact harmless_of_looks hc
    · exact fun _ => trivial
  unfold deleteVolume
  split
  · exact .ended
  split
  · refine .next (hread (.inr rfl)) fun partitions w₁ _ => ?_
    split
    · exact .ended
    · exact hthen _ w₁
    · exact .ended
  · refine .andThen (hread (.inl rfl)) (fun err w₁ _ => ?_) fun p w₁ _ => ?_
    · split <;> exact .ended
    · split
      · exact .ended
      · exact hthen p w₁

/-! ### Every run -/

theorem body_safe (s : Setting) (strict : Bool) (j : Job) (w : World) :
    (outline s strict).Safe j Post (body s j) w := by
  have hret : ∀ {r : Result} {w : World}, Post r w → (outline s strict).Safe j Post (.ret r) w := by
    intro r w h
    refine .ret fun w₁ hr _ => ?_
    unfold Post at h ⊢
    split
    · exact hr.log h
    · trivial
  cases j with
  | publish rounds polls req =>
    exact .bind ((publish_safe rounds polls req rfl w).conseq fun r w₁ _ h => hret h)
  | unpublish polls req =>
    have honly : (controllerUnpublishVolume polls req).Only (Harmless strict (.unpublish polls req)) :=
      controllerUnpublishVolume_only (fun _ => harmless_of_looks) (fun _ _ => .inr (.inl rfl)) polls req
    exact .bind ((harmless_complies honly).conseq fun r w₁ _ _ => hret trivial)
  | delete call polls volumeID => exact .bind ((deleteVolume_safe w).conseq fun r w₁ _ _ => hret trivial)
  | pass => exact .bind ((reconcile_safe w).conseq fun r w₁ _ _ => hret trivial)

theorem kept (h : ((machine s).guarded (guard strict)).system.Reachable pool) : (outline s strict).Kept pool :=
  Outline.Kept.reachable (fun j _ w _ _ => body_safe s strict j w) h

/-- **An attachment is detached before its volume is deleted**, in every run in which no attachment is created
between the check of a `DeleteVolume` call and its deletion: when the call deletes the live partition, every attachment
that a publish has returned was asked to be detached. -/
theorem detached_before_deletion
    (h : ((machine s).guarded undisturbed).system.Reachable pool) {rounds polls polls' call : ℕ} {req : PublishRequest}
    {resp : PublishResponse} {obj : NVMePartition} {k : Except Err Unit → Proc Result} {r : Except Err Unit}
    {w' : World} (hpublished : (.publish rounds polls req, .ret (.publish (.ok resp))) ∈ pool.threads)
    (hthread : (.delete call polls' volumeID, .call (.api (.delete .partition obj)) k) ∈ pool.threads)
    (hdelete : ((machine s).guarded undisturbed).system.sem (.delete call polls' volumeID) (.api (.delete .partition obj))
      pool.world r w') (hlive : closed pool.world = false) : Revoked resp.attachmentID pool.world := by
  have hguard : guard false = fun _ _ _ => true := rfl
  have hreach : ((machine s).guarded (guard false)).system.Reachable pool := by
    rw [hguard, Machine.guarded_true]
    exact Machine.reachable_of_guarded (machine s) h
  have hinv : Inv s false pool.world := (kept hreach).inv
  -- the call has looked, and nothing was created since
  have hchecked : .absent call ∈ pool.world.log := (kept hreach).req hthread call polls' volumeID rfl
  have hnot : interrupted call pool.world.log = false := by
    simpa [undisturbed, hlive] using ((Machine.sem_guarded (machine s)).1 hdelete).1
  have hcreated : .created resp.attachmentID ∈ pool.world.log := (kept hreach).post hpublished
  rcases hinv.kept _ hcreated with ⟨a, ha, -⟩ | hrevoked | hclosed
  · rw [hinv.since a call ha hchecked] at hnot
    cases hnot
  · exact hrevoked
  · rw [hlive] at hclosed
    cases hclosed

/-- **No fencing record is left behind**: in every orderly run, no attachment of the partition carries the
fencing finalizer once the partition is gone. -/
theorem no_orphan (h : ((machine s).guarded orderly).system.Reachable pool) (hgone : pool.world.partition.cur = none)
    {a : NVMeVolumeAttachment} (ha : pool.world.attachment.cur = some a) :
    a.containsFinalizer Attachment.finalizer = false := by
  have hreach : ((machine s).guarded (guard true)).system.Reachable pool := h
  have hfree : Free pool.world := (kept hreach).inv.clean rfl fun q hq => by rw [hgone] at hq; cases hq
  have hnot := hfree a ha
  rw [← containsFinalizer_iff] at hnot
  exact Bool.not_eq_true _ ▸ hnot

end

/-! ### Runs -/

section

attribute [local instance] asciiLib

open VolumeIdentity (sampleHandle)

def sampleSetting : Setting := ⟨⟨"ns", "vol"⟩, "u1", "n1"⟩

/-- A partition that is provisioned and exported. -/
def exported : NVMePartition where
  metadata := { ns := "ns", name := "vol", uid := "u1", generation := 1, finalizers := [partitionFinalizer] }
  spec := {
    size := 4194304, nodeName := "n1", parentDeviceSerialNumber := "s1", claimRef := some Manager.sampleRef }
  status := {
    state := .exported, externalID := "v", volumeID := sampleHandle, backendVolumeID := "b", spdkBaseBdev := "d1n1"
    nqn := VolumeIdentity.nqn "v" }

def sampleWorld : World := ⟨⟨[], some exported⟩, ⟨[], none⟩, []⟩

theorem initial_sampleWorld : initial sampleSetting sampleWorld :=
  ⟨rfl, rfl, exported, rfl, rfl, rfl, rfl, List.mem_singleton_self _⟩

def samplePublish : Job := .publish 2 2 ⟨sampleHandle, "n1", [], some ⟨some ⟨[], []⟩, some .singleNodeWriter⟩⟩

/-- The `i`-th program makes `n` calls, which are served from caches that have caught up. -/
def serve : ℕ → ℕ → List (Act Job Choice) := Act.serve { skip := 9, uuid := "a1", reply := Manager.sampleReplies }

/-- A publish creates an attachment. -/
def publishes : List (Act Job Choice) := .start samplePublish :: serve 0 4

/-- A publish has returned, and nobody has asked to detach its attachment. -/
def published (c : Pool Call Call.Resp World Job Result) : Bool :=
  c.threads.any fun t => match t with
    | (.publish _ _ _, .ret (.publish (.ok resp))) =>
      !c.world.log.contains (.deleted resp.attachmentID .publish) && !c.world.log.contains (.deleted resp.attachmentID .unpublish)
    | _ => false

theorem exists_of_published {c : Pool Call Call.Resp World Job Result} (h : published c = true) :
    ∃ rounds polls req resp, (.publish rounds polls req, .ret (.publish (.ok resp))) ∈ c.threads ∧
      ¬ Revoked resp.attachmentID c.world := by
  obtain ⟨⟨j, p⟩, ht, hp⟩ := List.any_eq_true.1 h
  split at hp
  · rename_i rounds polls req resp heq
    cases heq
    refine ⟨rounds, polls, req, resp, ht, ?_⟩
    simpa [Revoked] using hp
  · cases hp

/-- A publish has returned. -/
def returned (t : Job × Proc Result) : Bool :=
  match t with
  | (.publish _ _ _, .ret (.publish (.ok _))) => true
  | _ => false

theorem exists_of_returned {ts : List (Job × Proc Result)} (h : ts.any returned = true) :
    ∃ rounds polls req resp, (.publish rounds polls req, .ret (.publish (.ok resp))) ∈ ts := by
  obtain ⟨⟨j, p⟩, ht, hp⟩ := List.any_eq_true.1 h
  unfold returned at hp
  split at hp
  · rename_i rounds polls req resp heq
    cases heq
    exact ⟨rounds, polls, req, resp, ht⟩
  · cases hp

/-- A `DeleteVolume` call is about to delete the partition, undisturbed or not, and that will mark it. -/
def deleting (ok : Bool) (c : Pool Call Call.Resp World Job Result) : Bool :=
  c.threads.any fun t => match t with
    | (.delete call polls volumeID, .call (.api (.delete .partition obj)) _) =>
      undisturbed (.delete call polls volumeID) (.api (.delete .partition obj)) c.world = ok &&
      (answer sampleSetting {} (.delete call polls volumeID) (.api (.delete .partition obj)) c.world).any fun a => closed a.2
    | _ => false

theorem exists_of_deleting {ok : Bool} {c : Pool Call Call.Resp World Job Result} (h : deleting ok c = true) :
    ∃ call polls volumeID obj k r w', (.delete call polls volumeID, .call (.api (.delete .partition obj)) k) ∈ c.threads ∧
      undisturbed (.delete call polls volumeID) (.api (.delete .partition obj)) c.world = ok ∧
      (machine sampleSetting).system.sem (.delete call polls volumeID) (.api (.delete .partition obj)) c.world r w' ∧
      closed w' = true := by
  obtain ⟨⟨j, p⟩, ht, hp⟩ := List.any_eq_true.1 h
  split at hp
  · rename_i call polls volumeID obj k heq
    cases heq
    obtain ⟨hok, hp⟩ := Bool.and_eq_true_iff.1 hp
    obtain ⟨⟨r, w'⟩, ha, hc⟩ := (Option.any_eq_true _ _).1 hp
    exact ⟨call, polls, volumeID, obj, k, r, w', ht, of_decide_eq_true hok, ⟨{}, ha⟩, hc⟩
  · cases hp

/-- **A published volume is deleted.**  The call finds no attachment; then a publish creates one, the agent
lets its node in, and the publish returns; then the call deletes the partition. -/
theorem deleted_while_published : ∃ pool, (machine sampleSetting).system.Reachable pool ∧ closed pool.world = false ∧
    (∃ rounds polls req resp, (.publish rounds polls req, .ret (.publish (.ok resp))) ∈ pool.threads ∧
      ¬ Revoked resp.attachmentID pool.world) ∧
    ∃ call polls volumeID obj k r w',
      (.delete call polls volumeID, .call (.api (.delete .partition obj)) k) ∈ pool.threads ∧
      undisturbed (.delete call polls volumeID) (.api (.delete .partition obj)) pool.world = false ∧
      (machine sampleSetting).system.sem (.delete call polls volumeID) (.api (.delete .partition obj)) pool.world r w' ∧
      closed w' = true := by
  obtain ⟨pool, hpool, hp⟩ := Machine.exists_reachable
    (List.flatten [[.start (.delete 0 1 sampleHandle)], serve 0 2, publishes, [.start .pass], serve 0 12,
      serve 1 1]) sampleWorld
    (fun c => !closed c.world && published c && deleting false c)
    (show (machine sampleSetting).init sampleWorld from initial_sampleWorld) (by decide +kernel)
  simp only [Bool.and_eq_true, Bool.not_eq_true'] at hp
  exact ⟨pool, hpool, hp.1.1, exists_of_published hp.1.2, exists_of_deleting hp.2⟩

/-- A published volume is detached, and then deleted. -/
theorem detached_before_deletion_ordered : ∃ pool, ((machine sampleSetting).guarded undisturbed).system.Reachable pool ∧
    ∃ rounds polls req resp, (.publish rounds polls req, .ret (.publish (.ok resp))) ∈ pool.threads ∧
      Revoked resp.attachmentID pool.world := by
  obtain ⟨pool, hpool, hp⟩ := Machine.exists_reachable
    (List.flatten [publishes, [.start .pass], serve 0 12, serve 1 1, [.drop 0],
      [.start (.unpublish 2 ⟨sampleHandle, "n1"⟩)], serve 0 3, [.start .pass], serve 0 11,
      [.start (.delete 0 1 sampleHandle)], serve 0 2]) sampleWorld
    (fun c => !closed c.world && deleting true c && c.threads.any returned)
    (show ((machine sampleSetting).guarded undisturbed).init sampleWorld from initial_sampleWorld) (by decide +kernel)
  simp only [Bool.and_eq_true, Bool.not_eq_true'] at hp
  obtain ⟨⟨hlive, hdeleting⟩, hreturned⟩ := hp
  obtain ⟨rounds, polls, req, resp, ht⟩ := exists_of_returned hreturned
  obtain ⟨call, polls', volumeID, obj, k, r, w', hthread, hguard, hsem, -⟩ := exists_of_deleting hdeleting
  refine ⟨pool, hpool, rounds, polls, req, resp, ht, ?_⟩
  exact detached_before_deletion hpool ht hthread ((Machine.sem_guarded _).2 ⟨hguard, hsem⟩) hlive

/-- **A fencing record is left behind.**  The agent finds no attachment to release; then a publish creates one,
and the agent takes the cleanup finalizer off. -/
theorem orphaned : ∃ pool, (machine sampleSetting).system.Reachable pool ∧ pool.world.partition.cur = none ∧
    ∃ a, pool.world.attachment.cur = some a ∧ a.containsFinalizer Attachment.finalizer = true := by
  obtain ⟨pool, hpool, hp⟩ := Machine.exists_reachable
    (List.flatten [[.start (.delete 0 1 sampleHandle)], serve 0 3, [.start .pass], serve 0 3, publishes,
      serve 1 3]) sampleWorld
    (fun c => c.world.partition.cur.isNone && c.world.attachment.cur.any fun a => a.containsFinalizer Attachment.finalizer)
    (show (machine sampleSetting).init sampleWorld from initial_sampleWorld) (by decide +kernel)
  simp only [Bool.and_eq_true, Option.isNone_iff_eq_none] at hp
  exact ⟨pool, hpool, hp.1, (Option.any_eq_true _ _).1 hp.2⟩

/-- A partition is gone while an attachment with another finalizer is still there. -/
theorem no_orphan_released : ∃ pool, ((machine sampleSetting).guarded orderly).system.Reachable pool ∧
    pool.world.partition.cur = none ∧
    ∃ a, pool.world.attachment.cur = some a ∧ a.containsFinalizer Attachment.finalizer = false := by
  obtain ⟨pool, hpool, hp⟩ := Machine.exists_reachable
    (List.flatten [publishes,
      [.env { change := .administer [] [Attachment.finalizer, "other"] }, .env { change := .delete },
        .env { change := .sync }, .start .pass],
      serve 0 4, [.env { change := .sync }], serve 0 5]) sampleWorld
    (fun c => c.world.partition.cur.isNone && c.world.attachment.cur.isSome)
    (show ((machine sampleSetting).guarded orderly).init sampleWorld from initial_sampleWorld) (by decide +kernel)
  simp only [Bool.and_eq_true, Option.isNone_iff_eq_none, Option.isSome_iff_exists] at hp
  obtain ⟨hgone, a, ha⟩ := hp
  exact ⟨pool, hpool, hgone, a, ha, no_orphan hpool hgone ha⟩

end

end Distort.Teardown
