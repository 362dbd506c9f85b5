import Distort.Fencing.Main

/-!
Who deletes an attachment.

* `deleted_rightfully` — in every run whose deletions meet the lifetime that the caller has read, an
  attachment is deleted only by an unpublish that names its node or none, or by a publish for another
  node after this very lifetime was annotated with its node;
* `deleted_replacement` — a delayed unpublish of a former owner deletes the attachment of another node.

Nothing is assumed of the agent's cache.
-/

namespace Distort.Fencing

open Go Lib Lib.Kube Api Agent Csi Proc

/-- The actor may delete the lifetime `id` of the node `owner`, given what happened before. -/
def Rightful (id owner : Str) (before : List Event) : Actor → Prop
  | .unpublish nodeID => nodeID = owner ∨ nodeID = []
  | .publish nodeID => nodeID ≠ owner ∧ Event.annotated id owner ∈ before
  | .agent => False

/-- The invariant. -/
structure Owned (w : World) : Prop where
  created : ∀ b, w.cur = some b → b.spec.nodeID ≠ [] ∧ ∃ acl, Event.created b.spec acl ∈ w.log
  unique : ∀ s t acl acl', Event.created s acl ∈ w.log → Event.created t acl' ∈ w.log →
    s.attachmentID = t.attachmentID → s = t
  annotated : ∀ b, w.cur = some b → b.annotation Attachment.forceDetachAnnotation ≠ [] →
    Event.annotated b.spec.attachmentID (b.annotation Attachment.forceDetachAnnotation) ∈ w.log
  deleted : ∀ id owner who before, Event.deleted id owner who :: before <:+ w.log → Rightful id owner before who

/-! ### Steps that do not matter -/

/-- An event that the invariant does not speak about. -/
def Event.Aside : Event → Prop
  | .created _ _ | .deleted _ _ _ => False
  | _ => True

/-- The step creates and deletes nothing, and leaves the spec and the annotations of what it keeps. -/
structure Aside (w w' : World) : Prop where
  cur : ∀ b', w'.cur = some b' → ∃ b, w.cur = some b ∧ b'.spec = b.spec ∧
    b'.metadata.annotations = b.metadata.annotations
  log : ∃ l, w'.log = l ++ w.log ∧ ∀ e ∈ l, e.Aside

theorem Aside.of_cur {w w' : World} (hc : w'.cur = w.cur) (hl : ∃ l, w'.log = l ++ w.log ∧ ∀ e ∈ l, e.Aside) :
    Aside w w' :=
  ⟨fun b' hb' => ⟨b', by rw [← hc, hb'], rfl, rfl⟩, hl⟩

theorem Aside.refl (w : World) : Aside w w := .of_cur rfl ⟨[], rfl, by simp⟩

theorem Aside.suffix {w w' : World} (h : Aside w w') : w.log <:+ w'.log := by
  obtain ⟨l, hl, -⟩ := h.log
  exact ⟨l, hl.symm⟩

theorem aside_setHosts (w : World) (hosts : List Str) : Aside w (w.setHosts hosts) :=
  .of_cur rfl ⟨[.acl hosts], rfl, by simp [Event.Aside]⟩

theorem aside_addHost (w : World) (host : Str) : Aside w (w.addHost host) := by
  unfold World.addHost
  split
  · exact .refl w
  · exact aside_setHosts w _

theorem aside_readCached (w : World) (lag : Bool) (skip : ℕ) : Aside w (w.readCached lag skip).2 := by
  unfold World.readCached
  refine .of_cur ?_ ⟨[.read _], rfl, by simp [Event.Aside]⟩
  cases lag with
  | true => exact (w.attachment.view_shows skip).cur_eq
  | false => exact w.attachment.latest_shows.cur_eq

theorem aside_patchStatus (w : World) (base obj : NVMeVolumeAttachment) : Aside w (w.patchStatus base obj).2 := by
  unfold World.patchStatus
  cases hc : w.cur with
  | none => exact .refl w
  | some a =>
    refine ⟨?_, [], rfl, by simp⟩
    rintro b' ⟨⟩
    exact ⟨a, hc, rfl, rfl⟩

theorem aside_patch (w : World) (base obj : NVMeVolumeAttachment) : Aside w (w.patch base obj).2 := by
  unfold World.patch
  cases hc : w.cur with
  | none => exact .refl w
  | some a =>
    have hcur : ∀ b', (Object.patchFinalizers base obj a).settle = some b' →
        ∃ b, w.cur = some b ∧ b'.spec = b.spec ∧ b'.metadata.annotations = b.metadata.annotations := by
      intro b' hb'
      obtain rfl := settle_eq_some hb'
      exact ⟨a, hc, rfl, rfl⟩
    simp only
    split
    · exact .refl w
    split
    · exact ⟨hcur, [.released _ _], rfl, by simp [Event.Aside]⟩
    · exact ⟨hcur, [], rfl, by simp⟩

theorem Aside.answer {α : Type} {fate : Fate} {w w' : World} {served : Except Err α × World} {r : Except Err α}
    (h : fate.answer w served = some (r, w')) (hs : Aside w served.2) : Aside w w' := by
  rcases Fate.answer_state h with rfl | rfl
  · exact .refl _
  · exact hs

theorem aside_ite {w w1 : World} {p : Prop} [Decidable p] (h : Aside w w1) : Aside w (if p then w1 else w) := by
  split
  · exact h
  · exact .refl w

theorem aside_removePath (w : World) (nqn : Str) (path : Path) : Aside w (w.removePath nqn path).2 := by
  unfold World.removePath
  split
  · split
    · exact aside_setHosts w _
    · exact .refl w
  · split
    · split
      · exact .of_cur rfl ⟨[], rfl, by simp⟩
      · exact .refl w
    · exact .refl w

theorem aside_makeLink (w : World) (nqn : Str) (path : Path) : Aside w (w.makeLink nqn path).2 := by
  unfold World.makeLink
  split
  · split
    · exact .refl w
    · exact aside_addHost w _
  · split
    · split
      · exact .refl w
      · exact .of_cur rfl ⟨[], rfl, by simp⟩
    · exact .refl w

variable {who : Actor}

section

variable {w w' : World}

/-! ### What the steps do to the invariant -/

theorem suffix_of_deleted {id owner : Str} {before l log : List Event} (hl : ∀ e ∈ l, e.Aside)
    (h : Event.deleted id owner who :: before <:+ l ++ log) : Event.deleted id owner who :: before <:+ log := by
  induction l with
  | nil => exact h
  | cons e l ih =>
    rcases List.suffix_cons_iff.1 h with heq | h
    · obtain ⟨rfl, -⟩ := List.cons.inj heq
      have hno : (Event.deleted id owner who).Aside := hl _ (by simp)
      exact hno.elim
    · exact ih (fun e' he' => hl e' (by simp [he'])) h

theorem Owned.aside (h : Owned w) (hs : Aside w w') : Owned w' := by
  obtain ⟨l, hl, hal⟩ := hs.log
  have hcreated : ∀ s acl, Event.created s acl ∈ w'.log → Event.created s acl ∈ w.log := by
    intro s acl hm
    rw [hl, List.mem_append] at hm
    exact hm.resolve_left fun hm => hal _ hm
  have hsub : ∀ e ∈ w.log, e ∈ w'.log := fun e he => hs.suffix.subset he
  refine ⟨fun b' hb' => ?_, fun s t acl acl' hm hm' => ?_, fun b' hb' hne => ?_, fun id owner who before hd => ?_⟩
  · obtain ⟨b, hb, hspec, -⟩ := hs.cur b' hb'
    obtain ⟨hnode, acl, hm⟩ := h.created b hb
    rw [hspec]
    exact ⟨hnode, acl, hsub _ hm⟩
  · exact h.unique s t acl acl' (hcreated _ _ hm) (hcreated _ _ hm')
  · obtain ⟨b, hb, hspec, hann⟩ := hs.cur b' hb'
    have heq : b'.annotation Attachment.forceDetachAnnotation = b.annotation Attachment.forceDetachAnnotation := by
      simp only [Object.annotation, hann]
    rw [heq] at hne ⊢
    rw [hspec]
    exact hsub _ (h.annotated b hb hne)
  · rw [hl] at hd
    exact h.deleted id owner who before (suffix_of_deleted hal hd)

theorem Owned.administer (h : Owned w) {annotations : List (Str × Str)} {finalizers : List Str}
    (hw : w.administer annotations finalizers = some w') : Owned w' ∧ w.log <:+ w'.log := by
  unfold World.administer at hw
  cases hc : w.cur with
  | none => simp [hc] at hw
  | some a =>
    simp only [hc, Option.ite_none_right_eq_some, Option.some.injEq] at hw
    obtain ⟨-, rfl⟩ := hw
    refine ⟨⟨fun b hb => ?_, fun s t acl acl' hs ht => ?_, fun b hb _ => ?_, fun id owner who before hd => ?_⟩,
      List.suffix_cons _ _⟩
    · obtain rfl := settle_eq_some hb
      obtain ⟨hnode, acl, hm⟩ := h.created a hc
      exact ⟨hnode, acl, List.mem_cons_of_mem _ hm⟩
    · exact h.unique s t acl acl' (by simpa using hs) (by simpa using ht)
    · obtain rfl := settle_eq_some hb
      exact List.mem_cons_self
    · exact h.deleted id owner who before (suffix_of_deleted (l := [_]) (by simp [Event.Aside]) hd)

theorem Owned.create (h : Owned w) {obj : NVMeVolumeAttachment} (ch : Choice) (hnode : obj.spec.nodeID ≠ [])
    (hann : obj.metadata.annotations = []) (hf : w.fresh obj.spec.attachmentID = true) :
    Owned (w.create ch obj).2 ∧ w.log <:+ (w.create ch obj).2.log := by
  unfold World.create
  cases hc : w.cur with
  | some a => exact ⟨h, List.suffix_rfl⟩
  | none =>
    have hold := fresh_iff.1 hf
    refine ⟨⟨?_, fun s t acl acl' hs ht hid => ?_, ?_, fun id owner who before hd => ?_⟩, List.suffix_cons _ _⟩
    · rintro b ⟨⟩
      exact ⟨hnode, _, List.mem_cons_self⟩
    · rcases List.mem_cons.1 hs with hs | hs <;> rcases List.mem_cons.1 ht with ht | ht
      · cases hs
        cases ht
        rfl
      · cases hs
        exact absurd hid.symm (hold t _ ht)
      · cases ht
        exact absurd hid (hold s _ hs)
      · exact h.unique s t acl acl' hs ht hid
    · rintro b ⟨⟩ hne
      simp [Object.annotation, Object.admitted, hann] at hne
    · rcases List.suffix_cons_iff.1 hd with heq | hd
      · cases (List.cons.inj heq).1
      · exact h.deleted id owner who before hd

theorem Owned.delete (h : Owned w) (hr : ∀ b, w.cur = some b → Rightful b.spec.attachmentID b.spec.nodeID w.log who) :
    Owned (w.delete who).2 ∧ w.log <:+ (w.delete who).2.log := by
  unfold World.delete
  cases hc : w.cur with
  | none => exact ⟨h, List.suffix_rfl⟩
  | some a =>
    have hkeep : Owned (w.store a.delete) := by
      refine h.aside ⟨fun b' hb' => ?_, [], rfl, by simp⟩
      obtain ⟨-, -, -, hann, -, -, hspec, -⟩ := delete_eq_some hb'
      exact ⟨a, hc, hspec, hann⟩
    simp only
    split
    · exact ⟨hkeep, List.suffix_rfl⟩
    refine ⟨⟨fun b hb => ?_, fun s t acl acl' hs ht => ?_, fun b hb hne => ?_, fun id owner who' before hd => ?_⟩,
      List.suffix_cons _ _⟩
    · obtain ⟨hnode, acl, hm⟩ := hkeep.created b hb
      exact ⟨hnode, acl, List.mem_cons_of_mem _ hm⟩
    · exact hkeep.unique s t acl acl' (by simpa using hs) (by simpa using ht)
    · exact List.mem_cons_of_mem _ (hkeep.annotated b hb hne)
    · rcases List.suffix_cons_iff.1 hd with heq | hd
      · obtain ⟨he, rfl⟩ := List.cons.inj heq
        cases he
        exact hr a hc
      · exact hkeep.deleted id owner who' before hd

end

/-! ### A pass neither creates nor deletes -/

/-- A call that neither creates nor deletes an object. -/
def Call.Passive : Call → Prop
  | .api (.create _ _) | .api (.delete _ _) => False
  | _ => True

theorem passive_of_asksTarget {c : Call} (hc : asksTarget c = true) : Call.Passive c := by
  cases c with
  | api => exact absurd hc Bool.false_ne_true
  | _ => trivial

theorem passive_of_followsAttachment {c : Call} (hc : followsAttachment c = true) : Call.Passive c := by
  unfold followsAttachment at hc
  split at hc <;> trivial

theorem pass_only [StdLib] (cfg : Config) :
    (reconcileAttachmentAccess cfg.partition cfg.backend).Only Call.Passive := by
  refine reconcileAttachmentAccess_only (fun c hc => passive_of_followsAttachment hc) fun nqn host => ?_
  rcases cfg.access with h | h
  · rw [h]
    exact (Spdk.reconcileHostAccess_only nqn host).mono fun c hc => passive_of_asksTarget hc
  · rw [h]
    exact (Kernel.reconcileHostAccess_only nqn host).mono fun c hc => passive_of_asksTarget hc

/-! ### All together -/

section

variable [StdLib] {cfg : Config} {G : Job → Call → World → Bool} {ch : Choice} {w w' : World}

theorem aside_rpc {c : Rpc} {r : c.Resp} (h : w.rpc cfg ch c = some (r, w')) : Aside w w' := by
  cases c with
  | nvmfGetSubsystems => exact Aside.answer h (.refl w)
  | nvmfSubsystemAllowAnyHost nqn => exact Aside.answer h (aside_ite (.of_cur rfl ⟨[], rfl, by simp⟩))
  | nvmfSubsystemRemoveHost nqn host => exact Aside.answer h (aside_ite (aside_setHosts w _))
  | nvmfSubsystemAddHost nqn host => exact Aside.answer h (aside_ite (aside_addHost w host))
  | _ => cases h

theorem aside_fs {c : FsCall} {r : c.Resp} (h : w.fs cfg ch c = some (r, w')) : Aside w w' := by
  cases c with
  | writeFile path data => exact Aside.answer h (aside_ite (.of_cur rfl ⟨[], rfl, by simp⟩))
  | remove path => exact Aside.answer h (aside_removePath w _ path)
  | symlink target path => exact Aside.answer h (aside_makeLink w _ path)
  | _ => exact Aside.answer h (.refl w)

theorem aside_answer {j : Job} {c : Call} {r : c.Resp} (hc : Call.Passive c)
    (h : answer cfg ch j c w = some (r, w')) : Aside w w' := by
  unfold answer at h
  split at h
  · exact Aside.answer h (.refl w)
  · exact Aside.answer (Option.ite_none_right_eq_some.1 h).2 (.refl w)
  · exact Aside.answer (Option.ite_none_right_eq_some.1 h).2 (aside_readCached w _ _)
  · exact hc.elim
  · exact hc.elim
  · exact Aside.answer (Option.ite_none_right_eq_some.1 h).2 (aside_patch w _ _)
  · exact Aside.answer (Option.ite_none_right_eq_some.1 h).2 (aside_patchStatus w _ _)
  · cases h
    exact .refl w
  · cases h
    exact .refl w
  · obtain ⟨-, heq⟩ := Option.ite_none_left_eq_some.1 h
    cases heq
    exact .refl w
  · exact aside_rpc h
  · exact aside_fs h
  · cases h

/-- The deletion meets the lifetime that the caller has read, if any. -/
def sameLifetime (_ : Job) (c : Call) (w : World) : Bool :=
  match c with
  | .api (.delete .attachment obj) => w.cur.all fun b => b.spec.attachmentID = obj.spec.attachmentID
  | _ => true

/-- What callers know for good of an attachment that they were given. -/
structure Noted (a : NVMeVolumeAttachment) (log : List Event) : Prop where
  node : a.spec.nodeID ≠ []
  created : ∃ acl, Event.created a.spec acl ∈ log
  annotated : a.annotation Attachment.forceDetachAnnotation ≠ [] →
    Event.annotated a.spec.attachmentID (a.annotation Attachment.forceDetachAnnotation) ∈ log

omit [StdLib] in
/-- Whoever is entitled to delete what they have read may delete the stored attachment of the same
lifetime. -/
theorem Owned.rightful (h : Owned w) {obj b : NVMeVolumeAttachment} (hk : Noted obj w.log)
    (he : Entitled obj who) (hb : w.cur = some b) (hid : b.spec.attachmentID = obj.spec.attachmentID) :
    Rightful b.spec.attachmentID b.spec.nodeID w.log who := by
  obtain ⟨-, acl, hcreated⟩ := h.created b hb
  obtain ⟨acl', hcreated'⟩ := hk.created
  have hspec : b.spec = obj.spec := h.unique _ _ acl acl' hcreated hcreated' hid
  rw [hspec]
  cases who with
  | agent => exact he
  | unpublish nodeID => exact he.symm.imp_left Eq.symm
  | publish nodeID =>
    obtain ⟨hnode, hforce⟩ := he
    refine ⟨hnode.symm, ?_⟩
    have hann := hk.annotated (by rw [hforce]; exact hk.node)
    rw [hforce] at hann
    exact hann

/-- The invariant, as callers see it. -/
def owned (cfg : Config) : View cfg sameLifetime where
  Inv := Owned
  Guar w w' := w.log <:+ w'.log
  Knows := Noted
  guar_refl _ := List.suffix_rfl
  guar_log := id
  mono h hl := ⟨h.node, h.created.imp fun _ hm => hl.subset hm, fun hne => hl.subset (h.annotated hne)⟩
  known h hc := ⟨(h.created _ hc).1, (h.created _ hc).2, h.annotated _ hc⟩
  create := by
    rintro w _ ch h ⟨nodeID, id, hnode, -, rfl⟩ hf
    exact h.create ch hnode rfl hf
  delete := by
    intro w obj j h hk he hg
    refine h.delete fun b hb => h.rightful hk he hb ?_
    simpa [sameLifetime, hb] using hg

/-- The proof outline: everybody relies on the log only. -/
def revocationOutline (cfg : Config) : Outline ((machine cfg).guarded sameLifetime).system where
  Inv := Owned
  Rely _ w w' := w.log <:+ w'.log
  Guar _ w w' := w.log <:+ w'.log
  Req _ _ _ := True
  Post _ _ _ := True
  rely_refl _ _ := List.suffix_rfl
  rely_trans _ := List.IsSuffix.trans
  init := by
    rintro w ⟨ha, -, -, hl⟩
    constructor <;> simp [ha, hl, World.cur]
  env := by
    rintro w w' hi ⟨ch, hw⟩
    exact ⟨(hi.administer hw).1, fun _ => (hi.administer hw).2⟩
  guar _ _ _ _ _ _ _ hg := hg

theorem revocation_body_safe (j : Job) (w : World) :
    (revocationOutline cfg).Safe j ((revocationOutline cfg).Post j) (body cfg j) w := by
  cases j with
  | publish rounds polls req =>
    exact .bind ((controllerPublishVolume_safe (V := owned cfg) rfl).conseq fun _ _ _ _ => .ended)
  | unpublish polls req =>
    exact .bind ((controllerUnpublishVolume_safe (V := owned cfg) rfl).conseq fun _ _ _ _ => .ended)
  | pass =>
    refine .bind (Terms.Safe.conseq (Terms.Safe.of_only (I := fun _ => True)
      (pass_only cfg) trivial (fun _ _ _ _ => trivial) (fun _ _ _ _ _ => trivial) ?_)
      fun r w1 _ _ => .ended)
    intro c w1 r w2 hc hi _ hs
    obtain ⟨-, ch, ha⟩ := answer_of_sem hs
    have haside := aside_answer hc ha
    exact ⟨hi.aside haside, haside.suffix, trivial⟩

/-- **Deleted by the owner or by a confirmed takeover.**  In every run whose deletions meet the
lifetime that the caller has read, each deletion is rightful. -/
theorem deleted_rightfully (cfg : Config) {c : Pool Call Call.Resp World Job Result}
    (hc : ((machine cfg).guarded sameLifetime).system.Reachable c) {id owner : Str}
    {before : List Event} (hd : Event.deleted id owner who :: before <:+ c.world.log) :
    Rightful id owner before who := by
  have hi : Owned c.world := (Outline.Kept.reachable (fun j _ w _ _ => revocation_body_safe j w) hc).inv
  exact hi.deleted id owner who before hd

end

section

attribute [local instance] asciiLib

/-- A takeover that an administrator has confirmed. -/
theorem deleted_rightfully_takeover : ∃ c before,
    ((machine (sampleConfig true)).guarded sameLifetime).system.Reachable c ∧
    Event.deleted (str "a") (str "n1") (.publish (str "n2")) :: before <:+ c.world.log ∧
    Event.annotated (str "a") (str "n1") ∈ before := by
  obtain ⟨c, hc, hp⟩ := Machine.exists_reachable
    (publishCreates (str "n1") (str "a") ++
      [.env { annotations := [(Attachment.forceDetachAnnotation, str "n1")], finalizers := [Attachment.finalizer] },
        .start (samplePublish (str "n2"))] ++ serve 0 3) sampleWorld
    (fun c => c.world.log.head? = some (.deleted (str "a") (str "n1") (.publish (str "n2"))))
    (show ((machine (sampleConfig true)).guarded sameLifetime).init sampleWorld from ⟨rfl, rfl, rfl, rfl⟩)
    (by decide +kernel)
  obtain ⟨before, hl⟩ := List.head?_eq_some_iff.1 (of_decide_eq_true hp)
  have hs : Event.deleted (str "a") (str "n1") (.publish (str "n2")) :: before <:+ c.world.log := by
    exact hl ▸ List.suffix_rfl
  exact ⟨c, before, hc, hs, (deleted_rightfully (sampleConfig true) hc hs).2⟩

/-- Two unpublish calls read the attachment `a` of `n1`; one deletes it, the agent releases it, and a
publish for `n2` creates `b`.  Then the other one deletes. -/
def lateUnpublish : List (Act Job Choice) :=
  List.flatten [publishCreates (str "n1") (str "a"), [.start (sampleUnpublish (str "n1"))], serve 0 2,
    [.start (sampleUnpublish (str "n1"))], serve 0 3, passReads 0, serve 0 3, [.drop 0],
    publishCreates (str "n2") (str "b"), serve 2 1]

/-- **A delayed unpublish deletes the replacement.** -/
theorem deleted_replacement : ∃ c before, (machine (sampleConfig false)).system.Reachable c ∧
    Event.deleted (str "b") (str "n2") (.unpublish (str "n1")) :: before <:+ c.world.log ∧
    ¬ Rightful (str "b") (str "n2") before (.unpublish (str "n1")) := by
  obtain ⟨c, hc, hp⟩ := Machine.exists_reachable lateUnpublish sampleWorld
    (fun c => c.world.log.head? = some (.deleted (str "b") (str "n2") (.unpublish (str "n1"))))
    (show (machine (sampleConfig false)).init sampleWorld from ⟨rfl, rfl, rfl, rfl⟩) (by decide +kernel)
  obtain ⟨before, hl⟩ := List.head?_eq_some_iff.1 (of_decide_eq_true hp)
  have hother : ¬ (str "n1" = str "n2" ∨ str "n1" = []) := by decide
  refine ⟨c, before, hc, ?_, hother⟩
  exact hl ▸ List.suffix_rfl

end

end Distort.Fencing
