import Distort.Fencing.World

/-!
What holds of the attachment, the target and the log at all times.

The invariant speaks about every version of the attachment that the agent's cache may still show, not
only about the stored one: a version that looks live and fenced must still be the stored lifetime,
because the agent will act on it.
-/

namespace Distort.Fencing

open Go Lib Lib.Kube Api Agent Csi

/-- The attachment carries the fencing finalizer. -/
def Fenced (a : NVMeVolumeAttachment) : Prop := Attachment.finalizer ∈ a.metadata.finalizers

/-- The attachment is marked for deletion. -/
def Marked (a : NVMeVolumeAttachment) : Prop := a.metadata.deletionTimestamp = true

/-- What a publish for this volume writes into an attachment. -/
structure Proper [StdLib] (cfg : Config) (s : NVMeVolumeAttachmentSpec) : Prop where
  volume : s.volumeRef = ⟨cfg.partition.metadata.name, cfg.partition.metadata.uid⟩
  node : s.nodeID ≠ []
  host : s.hostNQN = Attachment.hostNQN s.nodeID
  id : s.attachmentID ≠ []

/-- What the agent was shown last. -/
def lastRead : List Event → Option (Option NVMeVolumeAttachment)
  | [] => none
  | .read v :: _ => some v
  | _ :: log => lastRead log

/-- The attachment was created while nobody was let in; later the agent, acting on this very lifetime,
made its host the only one. -/
def Granted (s : NVMeVolumeAttachmentSpec) (log : List Event) : Prop :=
  ∃ a before, Event.acl [s.hostNQN] :: before <:+ log ∧ lastRead before = some (some a) ∧ a.spec = s ∧
    Event.created s [] ∈ before

theorem Granted.mono {s : NVMeVolumeAttachmentSpec} {l l' : List Event} (h : Granted s l) (hl : l <:+ l') :
    Granted s l' := by
  obtain ⟨a, before, hs, ha⟩ := h
  exact ⟨a, before, hs.trans hl, ha⟩

/-- The finalizer of a lifetime was taken off in the pass that was shown this lifetime as marked, with
nobody let in. -/
def ReleasedProperly (id : Str) (acl : List Str) (before : List Event) : Prop :=
  acl = [] ∧ ∃ r, lastRead before = some (some r) ∧ r.spec.attachmentID = id ∧ Marked r

/-- The invariant. -/
structure Inv [StdLib] (cfg : Config) (w : World) : Prop where
  /-- Every visible version was created properly, while nobody was let in. -/
  created : ∀ a, some a ∈ w.attachment.versions → Proper cfg a.spec ∧ Event.created a.spec [] ∈ w.log
  /-- Nobody was let in when an attachment was created. -/
  alone : ∀ s acl, Event.created s acl ∈ w.log → acl = []
  /-- An attachment ID stands for one lifetime. -/
  unique : ∀ s t, Event.created s [] ∈ w.log → Event.created t [] ∈ w.log →
    s.attachmentID = t.attachmentID → s = t
  /-- What was shown to the agent was stored once. -/
  shown : ∀ a, Event.read (some a) ∈ w.log → Event.created a.spec [] ∈ w.log
  /-- A visible version that is unmarked and fenced is of the stored lifetime, still fenced. -/
  live : ∀ a, some a ∈ w.attachment.versions → ¬ Marked a → Fenced a →
    ∃ b, w.cur = some b ∧ b.spec = a.spec ∧ Fenced b
  /-- A mark is never taken off. -/
  marked : w.attachment.versions.Pairwise fun x y => ∀ a b, x = some a → y = some b →
    a.spec = b.spec → Marked a → Marked b
  /-- Once the agent was shown a lifetime as marked, it is shown it as marked. -/
  seen : ∀ a, Event.read (some a) ∈ w.log → Marked a →
    ∀ b, some b ∈ w.attachment.versions → b.spec = a.spec → Marked b
  closed : w.target.allowAnyHost = false
  exclusive : w.target.hosts.length ≤ 1
  /-- Whoever is let in is the host of the stored attachment, which is fenced. -/
  granted : ∀ h ∈ w.target.hosts, ∃ b, w.cur = some b ∧ Fenced b ∧ b.spec.hostNQN = h ∧ Granted b.spec w.log
  /-- The status names a lifetime only if that lifetime was granted access. -/
  observed : ∀ b, w.cur = some b → b.status.observedAttachmentID ≠ [] →
    b.status.observedAttachmentID = b.spec.attachmentID ∧ Granted b.spec w.log
  released : ∀ id acl before, Event.released id acl :: before <:+ w.log → ReleasedProperly id acl before

/-! ### Small facts about the state -/

@[simp] theorem store_cur (w : World) (v : Option NVMeVolumeAttachment) : (w.store v).cur = v := rfl
@[simp] theorem store_log (w : World) (v : Option NVMeVolumeAttachment) : (w.store v).log = w.log := rfl
@[simp] theorem store_target (w : World) (v : Option NVMeVolumeAttachment) : (w.store v).target = w.target := rfl
@[simp] theorem store_versions (w : World) (v : Option NVMeVolumeAttachment) :
    (w.store v).attachment.versions = w.attachment.versions ++ [v] := rfl
@[simp] theorem note_cur (w : World) (e : Event) : (w.note e).cur = w.cur := rfl
@[simp] theorem note_log (w : World) (e : Event) : (w.note e).log = e :: w.log := rfl
@[simp] theorem note_target (w : World) (e : Event) : (w.note e).target = w.target := rfl
@[simp] theorem note_attachment (w : World) (e : Event) : (w.note e).attachment = w.attachment := rfl

theorem cur_mem_versions {w : World} {b : NVMeVolumeAttachment} (h : w.cur = some b) :
    some b ∈ w.attachment.versions := by
  rw [← h]
  exact w.attachment.cur_mem

theorem fresh_iff {w : World} {id : Str} :
    w.fresh id = true ↔ ∀ s acl, Event.created s acl ∈ w.log → s.attachmentID ≠ id := by
  simp only [World.fresh, List.all_eq_true]
  constructor
  · intro h s acl hs
    simpa using h _ hs
  · intro h e he
    cases e with
    | created s acl => simpa using h s acl he
    | _ => rfl

theorem addHost_hosts {w : World} {host : Str} (hnil : w.target.hosts = []) : (w.addHost host).target.hosts = [host] := by
  simp [World.addHost, hnil, World.setHosts]

theorem removeHost_hosts {w : World} {host : Str} {hosts : List Str} (h : ∀ x ∈ w.target.hosts, x ∈ host :: hosts) :
    ∀ x ∈ (w.removeHost host).target.hosts, x ∈ hosts := by
  intro x hx
  obtain ⟨hx, hne⟩ := List.mem_filter.1 hx
  exact (List.mem_cons.1 (h x hx)).resolve_left (by simpa using hne)

/-- An event that the invariant does not speak about. -/
def Event.Plain : Event → Prop
  | .created _ _ | .read _ | .released _ _ => False
  | _ => True

theorem suffix_of_released {id : Str} {acl : List Str} {before log : List Event} {e : Event}
    (he : ∀ id acl, e ≠ .released id acl) (h : Event.released id acl :: before <:+ e :: log) :
    Event.released id acl :: before <:+ log := by
  rcases List.suffix_cons_iff.1 h with heq | h
  · exact absurd (List.cons.inj heq).1.symm (he id acl)
  · exact h

namespace Inv

variable [StdLib] {cfg : Config} {w : World}

theorem hosts_eq_nil (h : Inv cfg w) (hc : ∀ b, w.cur = some b → ¬ Fenced b) : w.target.hosts = [] := by
  by_contra hne
  obtain ⟨x, hx⟩ := List.exists_mem_of_ne_nil _ hne
  obtain ⟨b, hb, hf, -⟩ := h.granted x hx
  exact hc b hb hf

/-! ### The log -/

theorem note (h : Inv cfg w) {e : Event} (he : e.Plain) : Inv cfg (w.note e) := by
  have hcreated : ∀ s acl, Event.created s acl ∈ e :: w.log ↔ Event.created s acl ∈ w.log := by
    intro s acl
    rw [List.mem_cons, or_iff_right]
    rintro rfl
    exact he
  have hread : ∀ a, Event.read a ∈ e :: w.log ↔ Event.read a ∈ w.log := by
    intro a
    rw [List.mem_cons, or_iff_right]
    rintro rfl
    exact he
  refine ⟨?_, ?_, ?_, ?_, h.live, h.marked, ?_, h.closed, h.exclusive, ?_, ?_, ?_⟩
  · intro a ha
    exact ⟨(h.created a ha).1, (hcreated _ _).2 (h.created a ha).2⟩
  · intro s acl hs
    exact h.alone s acl ((hcreated _ _).1 hs)
  · intro s t hs ht
    exact h.unique s t ((hcreated _ _).1 hs) ((hcreated _ _).1 ht)
  · intro a ha
    exact (hcreated _ _).2 (h.shown a ((hread _).1 ha))
  · intro a ha
    exact h.seen a ((hread _).1 ha)
  · intro x hx
    obtain ⟨b, hb, hf, hh, hg⟩ := h.granted x hx
    exact ⟨b, hb, hf, hh, hg.mono (List.suffix_cons e _)⟩
  · intro b hb ho
    obtain ⟨h1, h2⟩ := h.observed b hb ho
    exact ⟨h1, h2.mono (List.suffix_cons e _)⟩
  · intro id acl before hl
    refine h.released id acl before (suffix_of_released ?_ hl)
    rintro id acl rfl
    exact he

theorem note_created (h : Inv cfg w) {s : NVMeVolumeAttachmentSpec} (hf : w.fresh s.attachmentID = true) :
    Inv cfg (w.note (.created s [])) := by
  have hread : ∀ a, Event.read a ∈ Event.created s [] :: w.log → Event.read a ∈ w.log := by
    intro a ha
    simpa using ha
  have hold : ∀ t acl, Event.created t acl ∈ w.log → t.attachmentID ≠ s.attachmentID := fresh_iff.1 hf
  refine ⟨?_, ?_, ?_, ?_, h.live, h.marked, ?_, h.closed, h.exclusive, ?_, ?_, ?_⟩
  · intro a ha
    exact ⟨(h.created a ha).1, List.mem_cons_of_mem _ (h.created a ha).2⟩
  · intro t acl ht
    rcases List.mem_cons.1 ht with heq | ht
    · cases heq
      rfl
    · exact h.alone t acl ht
  · intro t u ht hu hid
    rcases List.mem_cons.1 ht with ht | ht <;> rcases List.mem_cons.1 hu with hu | hu
    · cases ht
      cases hu
      rfl
    · cases ht
      exact absurd hid.symm (hold u _ hu)
    · cases hu
      exact absurd hid (hold t _ ht)
    · exact h.unique t u ht hu hid
  · intro a ha
    exact List.mem_cons_of_mem _ (h.shown a (hread _ ha))
  · intro a ha
    exact h.seen a (hread _ ha)
  · intro x hx
    obtain ⟨b, hb, hfb, hh, hg⟩ := h.granted x hx
    exact ⟨b, hb, hfb, hh, hg.mono (List.suffix_cons _ _)⟩
  · intro b hb ho
    obtain ⟨h1, h2⟩ := h.observed b hb ho
    exact ⟨h1, h2.mono (List.suffix_cons _ _)⟩
  · intro id acl before hl
    exact h.released id acl before (suffix_of_released (by simp) hl)

/-- A release is noted, with nobody let in, in a pass that was shown the lifetime as marked. -/
theorem note_released (h : Inv cfg w) {r : NVMeVolumeAttachment} (hr : lastRead w.log = some (some r))
    (hm : Marked r) (hnil : w.target.hosts = []) : Inv cfg (w.note (.released r.spec.attachmentID w.target.hosts)) := by
  have hmem : ∀ e ∈ Event.released r.spec.attachmentID w.target.hosts :: w.log,
      (∀ id acl, e ≠ .released id acl) → e ∈ w.log := by
    intro e he hne
    rcases List.mem_cons.1 he with rfl | he
    · exact absurd rfl (hne _ _)
    · exact he
  refine ⟨?_, ?_, ?_, ?_, h.live, h.marked, ?_, h.closed, h.exclusive, ?_, ?_, ?_⟩
  · intro a ha
    exact ⟨(h.created a ha).1, List.mem_cons_of_mem _ (h.created a ha).2⟩
  · intro s acl hs
    exact h.alone s acl (hmem _ hs (by simp))
  · intro s t hs ht
    exact h.unique s t (hmem _ hs (by simp)) (hmem _ ht (by simp))
  · intro a ha
    exact List.mem_cons_of_mem _ (h.shown a (hmem _ ha (by simp)))
  · intro a ha
    exact h.seen a (hmem _ ha (by simp))
  · intro x hx
    obtain ⟨b, hb, hfb, hh, hg⟩ := h.granted x hx
    exact ⟨b, hb, hfb, hh, hg.mono (List.suffix_cons _ _)⟩
  · intro b hb ho
    obtain ⟨h1, h2⟩ := h.observed b hb ho
    exact ⟨h1, h2.mono (List.suffix_cons _ _)⟩
  · intro id acl before hl
    rcases List.suffix_cons_iff.1 hl with heq | hl
    · cases heq
      exact ⟨hnil, r, hr, rfl, hm⟩
    · exact h.released id acl before hl

/-! ### A new version -/

variable {v : Option NVMeVolumeAttachment}

theorem store (h : Inv cfg w) (hcreated : ∀ a, v = some a → Proper cfg a.spec ∧ Event.created a.spec [] ∈ w.log)
    (hlive : ∀ x, some x ∈ w.attachment.versions → ¬ Marked x → Fenced x →
      ∃ b, v = some b ∧ b.spec = x.spec ∧ Fenced b)
    (hmarked : ∀ x a, some x ∈ w.attachment.versions → v = some a → x.spec = a.spec → Marked x → Marked a)
    (hseen : ∀ r a, Event.read (some r) ∈ w.log → Marked r → v = some a → a.spec = r.spec → Marked a)
    (hgranted : ∀ x ∈ w.target.hosts, ∃ b, v = some b ∧ Fenced b ∧ b.spec.hostNQN = x ∧ Granted b.spec w.log)
    (hobserved : ∀ b, v = some b → b.status.observedAttachmentID ≠ [] →
      b.status.observedAttachmentID = b.spec.attachmentID ∧ Granted b.spec w.log) : Inv cfg (w.store v) := by
  have hmem : ∀ x, some x ∈ (w.store v).attachment.versions → some x ∈ w.attachment.versions ∨ v = some x := by
    intro x hx
    rcases List.mem_append.1 hx with hx | hx
    · exact .inl hx
    · exact .inr (List.mem_singleton.1 hx).symm
  refine ⟨?_, h.alone, h.unique, h.shown, ?_, ?_, ?_, h.closed, h.exclusive, hgranted, hobserved, h.released⟩
  · intro x hx
    rcases hmem x hx with hx | hx
    · exact h.created x hx
    · exact hcreated x hx
  · intro x hx hm hf
    rcases hmem x hx with hx | hx
    · exact hlive x hx hm hf
    · exact ⟨x, hx, rfl, hf⟩
  · rw [store_versions, List.pairwise_append]
    refine ⟨h.marked, List.pairwise_singleton _ _, ?_⟩
    rintro x hx y hy a b rfl rfl
    exact hmarked a b hx (List.mem_singleton.1 hy).symm
  · intro r hr hm x hx
    rcases hmem x hx with hx | hx
    · exact h.seen r hr hm x hx
    · exact hseen r x hr hm hx

theorem marked_cur (h : Inv cfg w) {x a : NVMeVolumeAttachment} (hx : some x ∈ w.attachment.versions)
    (hc : w.cur = some a) (hs : x.spec = a.spec) (hm : Marked x) : Marked a := by
  rcases Feed.mem_versions.1 hx with ho | hcur
  · have hp := h.marked
    rw [Feed.versions, List.pairwise_append] at hp
    exact hp.2.2 (some x) ho (some a) (List.mem_singleton.2 hc.symm) x a rfl rfl hs hm
  · have : x = a := Option.some.inj (hcur.trans hc)
    exact this ▸ hm

/-- The stored attachment changes, but neither what it stands for nor its fence. -/
theorem store_same (h : Inv cfg w) {a a' : NVMeVolumeAttachment} (hc : w.cur = some a)
    (hs : a'.spec = a.spec) (hf : Fenced a → Fenced a') (hm : Marked a → Marked a')
    (ho : a'.status.observedAttachmentID ≠ [] →
      a'.status.observedAttachmentID = a.spec.attachmentID ∧ Granted a.spec w.log) : Inv cfg (w.store (some a')) := by
  have hmem := cur_mem_versions hc
  refine h.store ?_ ?_ ?_ ?_ ?_ ?_
  · rintro b ⟨⟩
    rw [hs]
    exact h.created a hmem
  · intro x hx hxm hxf
    obtain ⟨b, hb, hbs, hbf⟩ := h.live x hx hxm hxf
    obtain rfl : a = b := Option.some.inj (hc.symm.trans hb)
    exact ⟨a', rfl, hs.trans hbs, hf hbf⟩
  · rintro x b hx ⟨⟩ hxs hxm
    exact hm (h.marked_cur hx hc (hxs.trans hs) hxm)
  · rintro r b hr hrm ⟨⟩ hbs
    exact hm (h.seen r hr hrm a hmem (hs.symm.trans hbs))
  · intro x hx
    obtain ⟨b, hb, hbf, hbh, hbg⟩ := h.granted x hx
    obtain rfl : a = b := Option.some.inj (hc.symm.trans hb)
    exact ⟨a', rfl, hf hbf, by rw [hs, hbh], by rw [hs]; exact hbg⟩
  · rintro b ⟨⟩ hb
    rw [hs]
    exact ho hb

theorem store_none (h : Inv cfg w) (hc : ∀ b, w.cur = some b → ¬ Fenced b) : Inv cfg (w.store none) := by
  have hnil := h.hosts_eq_nil hc
  refine h.store (by simp) ?_ (by simp) (by simp) (by simp [hnil]) (by simp)
  intro x hx hxm hxf
  obtain ⟨b, hb, -, hbf⟩ := h.live x hx hxm hxf
  exact absurd hbf (hc b hb)

/-- A lifetime that is visible as marked only loses its fence, while nobody is let in. -/
theorem store_released (h : Inv cfg w) {a : NVMeVolumeAttachment} (hc : w.cur = some a) (hnil : w.target.hosts = [])
    (hm : ∀ b, some b ∈ w.attachment.versions → b.spec = a.spec → Marked b)
    (hv : ∀ a', v = some a' → a'.spec = a.spec ∧ Marked a' ∧ a'.status = a.status) : Inv cfg (w.store v) := by
  have hmem := cur_mem_versions hc
  refine h.store ?_ ?_ ?_ ?_ (by simp [hnil]) ?_
  · intro b hb
    rw [(hv b hb).1]
    exact h.created a hmem
  · intro x hx hxm hxf
    obtain ⟨b, hb, hbs, -⟩ := h.live x hx hxm hxf
    obtain rfl : a = b := Option.some.inj (hc.symm.trans hb)
    exact absurd (hm x hx hbs.symm) hxm
  · intro x b hx hb hxs hxm
    exact (hv b hb).2.1
  · intro r b hr hrm hb hbs
    exact (hv b hb).2.1
  · intro b hb ho
    obtain ⟨hs, -, hst⟩ := hv b hb
    rw [hst] at ho ⊢
    rw [hs]
    exact h.observed a hc ho

theorem store_new (h : Inv cfg w) {a : NVMeVolumeAttachment} (hc : w.cur = none) (hp : Proper cfg a.spec)
    (hcreated : Event.created a.spec [] ∈ w.log) (hversions : ∀ b, some b ∈ w.attachment.versions → b.spec ≠ a.spec)
    (hread : ∀ r, Event.read (some r) ∈ w.log → r.spec ≠ a.spec)
    (ho : a.status.observedAttachmentID = []) : Inv cfg (w.store (some a)) := by
  have hnone : ∀ b, w.cur = some b → ¬ Fenced b := by simp [hc]
  refine h.store ?_ ?_ ?_ ?_ (by simp [h.hosts_eq_nil hnone]) ?_
  · rintro b ⟨⟩
    exact ⟨hp, hcreated⟩
  · intro x hx hxm hxf
    obtain ⟨b, hb, -⟩ := h.live x hx hxm hxf
    simp [hc] at hb
  · rintro x b hx ⟨⟩ hxs
    exact absurd hxs (hversions x hx)
  · rintro r b hr - ⟨⟩ hbs
    exact absurd hbs.symm (hread r hr)
  · rintro b ⟨⟩ hb
    exact absurd ho hb

/-! ### What the agent sees and does -/

theorem read (h : Inv cfg w) {f : Feed (Option NVMeVolumeAttachment)}
    (hv : w.attachment.Shows v f) : Inv cfg ({ w with attachment := f }.note (.read v)) := by
  have hsub : ∀ x, x ∈ f.versions → x ∈ w.attachment.versions := fun x hx => hv.suffix.subset hx
  have hcur : f.cur = w.attachment.cur := hv.cur_eq
  have hcreated : ∀ s acl, Event.created s acl ∈ Event.read v :: w.log → Event.created s acl ∈ w.log := by
    intro s acl hs
    simpa using hs
  refine ⟨?_, ?_, ?_, ?_, ?_, ?_, ?_, h.closed, h.exclusive, ?_, ?_, ?_⟩
  · intro x hx
    exact ⟨(h.created x (hsub _ hx)).1, List.mem_cons_of_mem _ (h.created x (hsub _ hx)).2⟩
  · intro s acl hs
    exact h.alone s acl (hcreated s acl hs)
  · intro s t hs ht
    exact h.unique s t (hcreated s _ hs) (hcreated t _ ht)
  · intro x hx
    rcases List.mem_cons.1 hx with heq | hx
    · cases heq
      exact List.mem_cons_of_mem _ (h.created x hv.mem).2
    · exact List.mem_cons_of_mem _ (h.shown x hx)
  · intro x hx hxm hxf
    obtain ⟨b, hb, hbs⟩ := h.live x (hsub _ hx) hxm hxf
    exact ⟨b, hcur.trans hb, hbs⟩
  · exact h.marked.sublist hv.suffix.sublist
  · intro r hr hrm x hx hxs
    rcases List.mem_cons.1 hr with heq | hr
    · -- the version just shown is the first one left
      cases heq
      obtain ⟨l, hl⟩ := hv.versions_eq
      have hp := h.marked.sublist hv.suffix.sublist
      change some x ∈ f.versions at hx
      rw [hl] at hp hx
      rcases List.mem_cons.1 hx with heq | hx
      · cases heq
        exact hrm
      · exact (List.pairwise_cons.1 hp).1 (some x) hx r x rfl rfl hxs.symm hrm
    · exact h.seen r hr hrm x (hsub _ hx) hxs
  · intro x hx
    obtain ⟨b, hb, hbf, hbh, hbg⟩ := h.granted x hx
    exact ⟨b, hcur.trans hb, hbf, hbh, hbg.mono (List.suffix_cons _ _)⟩
  · intro b hb ho
    obtain ⟨h1, h2⟩ := h.observed b (hcur.symm.trans hb) ho
    exact ⟨h1, h2.mono (List.suffix_cons _ _)⟩
  · intro id acl before hl
    exact h.released id acl before (suffix_of_released (by simp) hl)

/-- The target lets in nobody from now on, or the host of the stored and fenced attachment, which
the agent was shown. -/
theorem setHosts (h : Inv cfg w) {hosts : List Str}
    (hh : ∀ x ∈ hosts, x ∈ w.target.hosts ∨ hosts = [x] ∧ ∃ a b, w.cur = some b ∧ Fenced b ∧ b.spec.hostNQN = x ∧
      a.spec = b.spec ∧ lastRead w.log = some (some a)) (hlen : hosts.length ≤ 1) : Inv cfg (w.setHosts hosts) := by
  have hn : Inv cfg (w.note (.acl hosts)) := h.note trivial
  refine ⟨hn.created, hn.alone, hn.unique, hn.shown, hn.live, hn.marked, hn.seen, hn.closed, hlen, ?_,
    hn.observed, hn.released⟩
  intro x hx
  rcases hh x hx with hold | ⟨rfl, a, b, hb, hbf, hbh, hab, hl⟩
  · exact hn.granted x hold
  refine ⟨b, hb, hbf, hbh, a, w.log, ?_, hl, hab, (h.created b (cur_mem_versions hb)).2⟩
  rw [hbh]
  exact List.suffix_rfl

end Inv

end Distort.Fencing
