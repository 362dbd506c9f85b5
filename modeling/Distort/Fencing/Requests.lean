import Distort.Fencing.Invariant

/-!
What one request does to the invariant, and what the agent can count on while the others make
theirs.
-/

namespace Distort.Fencing

open Go Lib Lib.Kube Api Agent Csi

/-! ### What others leave alone -/

/-- What the agent can count on while others act: the target is its own, nobody else's reads are
noted, and a fenced attachment stays and stays fenced. -/
structure Undisturbed (w w' : World) : Prop where
  log : w.log <:+ w'.log
  lastRead : lastRead w'.log = lastRead w.log
  target : w'.target = w.target
  fenced : ∀ b, w.cur = some b → Fenced b → ∃ b', w'.cur = some b' ∧ b'.spec = b.spec ∧ Fenced b'

theorem Undisturbed.refl (w : World) : Undisturbed w w :=
  ⟨List.suffix_rfl, rfl, rfl, fun b hb hf => ⟨b, hb, rfl, hf⟩⟩

theorem Undisturbed.trans {a b c : World} (h1 : Undisturbed a b) (h2 : Undisturbed b c) : Undisturbed a c := by
  refine ⟨h1.log.trans h2.log, h2.lastRead.trans h1.lastRead, h2.target.trans h1.target, fun x hx hf => ?_⟩
  obtain ⟨y, hy, hys, hyf⟩ := h1.fenced x hx hf
  obtain ⟨z, hz, hzs, hzf⟩ := h2.fenced y hy hyf
  exact ⟨z, hz, hzs.trans hys, hzf⟩

theorem Undisturbed.note {w w' : World} (h : Undisturbed w w') {e : Event} (he : e.Plain) :
    Undisturbed w (w'.note e) := by
  refine ⟨h.log.trans (List.suffix_cons e _), ?_, h.target, h.fenced⟩
  rw [← h.lastRead]
  cases e with
  | read v => exact absurd he id
  | _ => rfl

/-- A call of the agent to its target: the attachment and what was read are as before. -/
structure OnTarget (w w' : World) : Prop where
  attachment : w'.attachment = w.attachment
  log : w.log <:+ w'.log
  lastRead : lastRead w'.log = lastRead w.log

theorem OnTarget.refl (w : World) : OnTarget w w := ⟨rfl, List.suffix_rfl, rfl⟩

theorem onTarget_setHosts (w : World) (hosts : List Str) : OnTarget w (w.setHosts hosts) :=
  ⟨rfl, List.suffix_cons _ _, rfl⟩

theorem onTarget_addHost (w : World) (host : Str) : OnTarget w (w.addHost host) := by
  unfold World.addHost
  split
  · exact .refl w
  · exact onTarget_setHosts w _

@[simp] theorem entryOf_allowedHostPath (nqn host : Str) :
    World.entryOf nqn (Kernel.allowedHostPath nqn host) = some host := by
  simp [World.entryOf, Kernel.allowedHostPath, Kernel.allowedHostsPath]

@[simp] theorem entryOf_linkPath (nqn nqn' : Str) : World.entryOf nqn (Kernel.linkPath nqn') = none := by
  have : Kernel.linksPath ≠ Kernel.allowedHostsPath nqn := by
    intro h
    exact absurd (List.cons.inj h).1 (by decide)
  unfold World.entryOf
  rw [if_neg]
  simpa [Kernel.linkPath, Kernel.linksPath] using this

theorem mem_of_lastRead {log : List Event} {v : Option NVMeVolumeAttachment} (h : lastRead log = some v) :
    Event.read v ∈ log := by
  induction log with
  | nil => cases h
  | cons e log ih =>
    cases e with
    | read v' =>
      cases h
      exact List.mem_cons_self ..
    | _ => exact List.mem_cons_of_mem _ (ih h)

section

variable [StdLib] {cfg : Config} {w : World}

/-! ### Requests of the others -/

theorem delete_served (h : Inv cfg w) (who : Actor) : Inv cfg (w.delete who).2 ∧ Undisturbed w (w.delete who).2 := by
  unfold World.delete
  cases hc : w.cur with
  | none => exact ⟨h, .refl w⟩
  | some a =>
    have key : Inv cfg (w.store a.delete) ∧ Undisturbed w (w.store a.delete) := by
      cases hd : a.delete with
      | none =>
        have hf : ∀ b, w.cur = some b → ¬ Fenced b := by
          rintro b hb hf
          obtain rfl : a = b := Option.some.inj (hc.symm.trans hb)
          simp [Fenced, delete_eq_none hd] at hf
        exact ⟨h.store_none hf, List.suffix_rfl, rfl, rfl, fun b hb hbf => absurd hbf (hf b hb)⟩
      | some a' =>
        obtain ⟨-, hm, hfin, -, -, -, hs, hst⟩ := delete_eq_some hd
        have hf : Fenced a → Fenced a' := by
          unfold Fenced
          rw [hfin]
          exact id
        refine ⟨h.store_same hc hs hf (fun _ => hm) ?_, List.suffix_rfl, rfl, rfl, fun b hb hbf => ?_⟩
        · rw [hst]
          exact h.observed a hc
        · obtain rfl : a = b := Option.some.inj (hc.symm.trans hb)
          exact ⟨a', rfl, hs, hf hbf⟩
    simp only
    split
    · exact key
    · exact ⟨key.1.note trivial, key.2.note trivial⟩

theorem administer_served (h : Inv cfg w) {annotations : List (Str × Str)} {finalizers : List Str} {w' : World}
    (hw : w.administer annotations finalizers = some w') : Inv cfg w' ∧ Undisturbed w w' := by
  unfold World.administer at hw
  cases hc : w.cur with
  | none => simp [hc] at hw
  | some a =>
    simp only [hc, Option.ite_none_right_eq_some, Option.some.injEq] at hw
    obtain ⟨⟨hfin, -⟩, rfl⟩ := hw
    generalize ha' : ({ a with metadata := { a.metadata with annotations, finalizers } } : NVMeVolumeAttachment) = a'
      at hfin
    have hs : a'.spec = a.spec := by rw [← ha']
    have hst : a'.status = a.status := by rw [← ha']
    have hm : a'.metadata.deletionTimestamp = a.metadata.deletionTimestamp := by rw [← ha']
    have hf : Fenced a' ↔ Fenced a := by
      unfold Fenced
      rw [← containsFinalizer_iff, ← containsFinalizer_iff, hfin]
    have key : Inv cfg (w.store a'.settle) ∧ Undisturbed w (w.store a'.settle) := by
      cases hd : a'.settle with
      | none =>
        have hnf : ∀ b, w.cur = some b → ¬ Fenced b := by
          rintro b hb hbf
          obtain rfl : a = b := Option.some.inj (hc.symm.trans hb)
          have := hf.2 hbf
          simp [Fenced, (settle_eq_none hd).2] at this
        exact ⟨h.store_none hnf, List.suffix_rfl, rfl, rfl, fun b hb hbf => absurd hbf (hnf b hb)⟩
      | some a'' =>
        obtain rfl := settle_eq_some hd
        refine ⟨h.store_same hc hs hf.2 (fun hma => ?_) ?_, List.suffix_rfl, rfl, rfl, fun b hb hbf => ?_⟩
        · exact hm.trans hma
        · rw [hst]
          exact h.observed a hc
        · obtain rfl : a = b := Option.some.inj (hc.symm.trans hb)
          exact ⟨a'', rfl, hs, hf.2 hbf⟩
    exact ⟨key.1.note trivial, key.2.note trivial⟩

theorem create_served (h : Inv cfg w) (ch : Choice) {obj : NVMeVolumeAttachment} (hp : Proper cfg obj.spec)
    (hf : w.fresh obj.spec.attachmentID = true) : Inv cfg (w.create ch obj).2 ∧ Undisturbed w (w.create ch obj).2 := by
  unfold World.create
  cases hc : w.cur with
  | some a => exact ⟨h, .refl w⟩
  | none =>
    have hnil : w.target.hosts = [] := h.hosts_eq_nil (by simp [hc])
    have hold : ∀ t acl, Event.created t acl ∈ w.log → t.attachmentID ≠ obj.spec.attachmentID := fresh_iff.1 hf
    simp only [hnil]
    refine ⟨?_, List.suffix_cons _ _, rfl, rfl, by simp [hc]⟩
    have hi : Inv cfg (w.note (.created obj.spec [])) := h.note_created hf
    refine hi.store_new hc hp (List.mem_cons_self ..) ?_ ?_ rfl
    · intro b hb hs
      exact hold b.spec _ (h.created b hb).2 (congrArg _ hs)
    · intro r hr hs
      have hr : Event.read (some r) ∈ w.log := by simpa using hr
      exact hold r.spec _ (h.shown r hr) (congrArg _ hs)

/-! ### Requests of the agent -/

theorem removeHost_served (h : Inv cfg w) (host : Str) : Inv cfg (w.removeHost host) := by
  refine h.setHosts (fun x hx => .inl (List.mem_of_mem_filter hx)) ?_
  exact (List.length_filter_le _ _).trans h.exclusive

/-- The host of the stored attachment is let in, after everybody else was taken off. -/
theorem addHost_served (h : Inv cfg w) {host : Str} (hnil : w.target.hosts = []) {a b : NVMeVolumeAttachment}
    (hb : w.cur = some b) (hbf : Fenced b) (hbh : b.spec.hostNQN = host) (hab : a.spec = b.spec)
    (hl : lastRead w.log = some (some a)) : Inv cfg (w.addHost host) := by
  unfold World.addHost
  rw [hnil]
  refine h.setHosts (fun x hx => .inr ?_) (by simp)
  obtain rfl : x = host := by simpa using hx
  exact ⟨rfl, a, b, hb, hbf, hbh, hab, hl⟩

theorem setAnyHost_served (h : Inv cfg w) : Inv cfg (w.setAnyHost false) :=
  ⟨h.created, h.alone, h.unique, h.shown, h.live, h.marked, h.seen, rfl, h.exclusive, h.granted, h.observed,
    h.released⟩

theorem setLinked_served (h : Inv cfg w) (linked : Bool) : Inv cfg (w.setLinked linked) :=
  ⟨h.created, h.alone, h.unique, h.shown, h.live, h.marked, h.seen, h.closed, h.exclusive, h.granted, h.observed,
    h.released⟩

/-- The status is written; what it names as observed is nothing, or the stored lifetime, whose host
is let in. -/
theorem patchStatus_served (h : Inv cfg w) {base obj : NVMeVolumeAttachment}
    (ho : ∀ b, w.cur = some b → obj.status.observedAttachmentID ≠ [] →
      obj.status.observedAttachmentID = b.spec.attachmentID ∧ b.spec.hostNQN ∈ w.target.hosts) :
    Inv cfg (w.patchStatus base obj).2 := by
  unfold World.patchStatus
  cases hc : w.cur with
  | none => exact h
  | some a =>
    refine h.store_same hc rfl id id fun hne => ?_
    simp only [NVMeVolumeAttachmentStatus.merge] at hne ⊢
    rcases mergeField_cases base.status.observedAttachmentID obj.status.observedAttachmentID
      a.status.observedAttachmentID with heq | heq
    · rw [heq] at hne ⊢
      exact h.observed a hc hne
    · rw [heq] at hne ⊢
      obtain ⟨hid, hmem⟩ := ho a hc hne
      obtain ⟨b, hb, -, -, hg⟩ := h.granted _ hmem
      obtain rfl : a = b := Option.some.inj (hc.symm.trans hb)
      exact ⟨hid, hg⟩

/-- The finalizer is taken off, on behalf of a lifetime `r` that the agent was shown as marked, while
nobody is let in; the stored lifetime is that one. -/
theorem patch_served (h : Inv cfg w) {r obj : NVMeVolumeAttachment} (hr : lastRead w.log = some (some r))
    (hm : Marked r) (hnil : w.target.hosts = []) (hown : ∀ b, w.cur = some b → b.spec = r.spec) :
    Inv cfg (w.patch r obj).2 := by
  unfold World.patch
  cases hc : w.cur with
  | none => exact h
  | some a =>
    have hspec : a.spec = r.spec := hown a hc
    have hmarked : ∀ b, some b ∈ w.attachment.versions → b.spec = a.spec → Marked b :=
      fun b hb hbs => h.seen r (mem_of_lastRead hr) hm b hb (hbs.trans hspec)
    have hma : Marked a := hmarked a (cur_mem_versions hc) rfl
    have hv : ∀ a', (Object.patchFinalizers r obj a).settle = some a' →
        a'.spec = a.spec ∧ Marked a' ∧ a'.status = a.status := by
      intro a' ha'
      obtain rfl := settle_eq_some ha'
      exact ⟨rfl, hma, rfl⟩
    simp only
    split
    · exact h
    split
    · rw [hspec]
      exact (h.note_released hr hm hnil).store_released hc hnil hmarked hv
    · exact h.store_released hc hnil hmarked hv

end

end Distort.Fencing
