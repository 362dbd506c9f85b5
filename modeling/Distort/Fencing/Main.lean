import Distort.Agent.BackendSpdk
import Distort.Fencing.Pass

/-!
Fencing: what holds in every reachable state of the system of one exported volume.

* `single_writer` — with a cache that does not lag, the target lets in at most one host, only the
  host of the stored attachment, and a publish that succeeds was granted exclusive access;
* `released_own_lifetime` — with a lagging cache the same holds in every run in which the patch that
  takes off the finalizer never meets another lifetime than the one the pass was shown;
  `released_other_lifetime` is a run in which it does.
-/

namespace Distort.Fencing

open Go Lib Lib.Kube Api Agent Csi Proc

variable {c : Pool Call Call.Resp World Job Result}

section

variable [StdLib] {cfg : Config} {G : Job → Call → World → Bool}

/-! ### A whole pass -/

/-- The stored attachment stands for `s`, is fenced, and its host alone is let in. -/
def Secured (s : NVMeVolumeAttachmentSpec) (w : World) : Prop :=
  (∃ b, w.cur = some b ∧ b.spec = s ∧ Fenced b) ∧ w.target.hosts = [s.hostNQN]

omit [StdLib] in
theorem Secured.undisturbed {s : NVMeVolumeAttachmentSpec} {w w' : World} (h : Secured s w)
    (hu : Undisturbed w w') : Secured s w' := by
  obtain ⟨⟨b, hb, hbs, hbf⟩, hT⟩ := h
  obtain ⟨b', hb', hbs', hbf'⟩ := hu.fenced b hb hbf
  exact ⟨⟨b', hb', hbs'.trans hbs, hbf'⟩, by rw [hu.target]; exact hT⟩

section

variable {w : World}

theorem readCached_served (h : Inv cfg w) (skip : ℕ) :
    Inv cfg (w.readCached cfg.lag skip).2 ∧ w.log <:+ (w.readCached cfg.lag skip).2.log ∧
      (w.readCached cfg.lag skip).2.cur = w.cur ∧ (w.readCached cfg.lag skip).2.target = w.target ∧
      ∃ v, (w.readCached cfg.lag skip).1 = found v ∧ Holds cfg v (w.readCached cfg.lag skip).2 := by
  have hshows : ∃ v f, w.attachment.Shows v f ∧ (cfg.lag = false → v = w.cur) ∧
      w.readCached cfg.lag skip = (found v, { w with attachment := f }.note (.read v)) := by
    unfold World.readCached
    cases hlag : cfg.lag with
    | true => exact ⟨_, _, w.attachment.view_shows skip, by simp, rfl⟩
    | false => exact ⟨_, _, w.attachment.latest_shows, fun _ => rfl, rfl⟩
  obtain ⟨v, f, hv, hfresh, heq⟩ := hshows
  rw [heq]
  refine ⟨h.read hv, List.suffix_cons _ _, hv.cur_eq, rfl, v, rfl, rfl, ?_⟩
  rintro a rfl hf hm
  by_cases hma : Marked a
  · have hcur : some a = w.cur := hfresh (hm.resolve_right (not_not.2 hma))
    exact ⟨a, hv.cur_eq.trans hcur.symm, rfl, hf⟩
  · obtain ⟨b, hb, hbs⟩ := h.live a hv.mem hma hf
    exact ⟨b, hv.cur_eq.trans hb, hbs⟩

theorem attachmentForPartition_safe :
    (passTerms cfg G).Safe (fun r w' => ∀ v, r = .ok v → Holds cfg v w') (attachmentForPartition cfg.partition) w := by
  refine .check (Terms.Safe.call (fun _ _ _ => trivial) fun w1 r w2 hu hi hs => ?_)
  obtain ⟨-, ch, ha⟩ := answer_of_sem hs
  simp only [answer, Option.ite_none_right_eq_some] at ha
  obtain ⟨-, ha⟩ := ha
  obtain ⟨hi', hl', -, -, v, hv, hholds⟩ := readCached_served hi ch.skip
  have hkept : Inv cfg w2 ∧ w1.log <:+ w2.log := by
    rcases Fate.answer_state ha with rfl | rfl
    · exact ⟨hi, List.suffix_rfl⟩
    · exact ⟨hi', hl'⟩
  refine ⟨hkept.1, hkept.2, Terms.Safe.ret fun w3 hu3 _ => ?_⟩
  -- what the server said about the attachment is what was shown
  have hret : ∀ v', w1.readCached cfg.lag ch.skip = (found v', w2) → Holds cfg v' w3 := by
    intro v' heq
    have hvv : found v' = found v := by rw [← hv, heq]
    have : v' = v := by
      cases v' <;> cases v <;> simp_all [found]
    rw [this]
    rw [heq] at hholds
    exact hholds.undisturbed hu3
  cases r with
  | error err =>
    simp only
    split
    · rename_i hn
      refine .ret fun w4 hu4 _ => ?_
      rintro v' ⟨⟩
      refine (hret none ?_).undisturbed hu4
      have heq := Fate.answer_notFound ha hn
      have hnone : Except.error err = found v := by rw [← hv, heq]
      cases v with
      | none => rw [heq, hnone]
      | some a => simp [found] at hnone
    · refine .ret fun w4 _ _ => ?_
      rintro v' ⟨⟩
  | ok a =>
    refine .ret fun w4 hu4 _ => ?_
    rintro v' ⟨⟩
    exact (hret (some a) (Fate.answer_ok ha)).undisturbed hu4

theorem setAttachmentCondition_safe {key : Key} {id : Str} {st : ConditionStatus} {reason : String} {msg : Str}
    (hsec : st = .true → ∃ s, s.attachmentID = id ∧ Secured s w) :
    (passTerms cfg G).Complies (setAttachmentCondition key id st reason msg) w := by
  refine .check (Terms.Safe.call (fun _ _ _ => trivial) fun w1 r w2 hu hi hs => ?_)
  obtain ⟨-, ch, ha⟩ := answer_of_sem hs
  simp only [answer, Option.ite_none_right_eq_some] at ha
  obtain ⟨-, ha⟩ := ha
  obtain ⟨hi', hl', hcur', htarget', -⟩ := readCached_served hi ch.skip
  have hkept : Inv cfg w2 ∧ w1.log <:+ w2.log ∧ w2.cur = w1.cur ∧ w2.target = w1.target := by
    rcases Fate.answer_state ha with rfl | rfl
    · exact ⟨hi, List.suffix_rfl, rfl, rfl⟩
    · exact ⟨hi', hl', hcur', htarget'⟩
  refine ⟨hkept.1, hkept.2.1, Terms.Safe.ret fun w3 hu3 _ => ?_⟩
  have hsec3 : st = .true → ∃ s, s.attachmentID = id ∧ Secured s w3 := by
    intro hst
    obtain ⟨s, hid, hs⟩ := hsec hst
    refine ⟨s, hid, Secured.undisturbed ?_ hu3⟩
    have hs1 := hs.undisturbed hu
    unfold Secured at hs1 ⊢
    rw [hkept.2.2.1, hkept.2.2.2]
    exact hs1
  rcases r with err | latest
  · exact .ended
  refine .next (Q := fun _ _ => True) (.call (fun _ _ _ => trivial) fun w4 r w5 hu4 hi4 hs4 => ?_) fun _ _ _ => .ended
  obtain ⟨-, ch, ha⟩ := answer_of_sem hs4
  simp only [answer, Option.ite_none_right_eq_some] at ha
  obtain ⟨-, ha⟩ := ha
  have hlog : ∀ base obj, w4.log <:+ (w4.patchStatus base obj).2.log := by
    intro base obj
    unfold World.patchStatus
    cases w4.cur <;> exact List.suffix_rfl
  have hserved : Inv cfg (w4.patchStatus latest (withAttachmentCondition latest id st reason msg)).2 := by
    refine patchStatus_served hi4 fun b hb hne => ?_
    by_cases hst : st = .true
    · obtain ⟨s, hid, hs⟩ := hsec3 hst
      obtain ⟨⟨b', hb', hbs', -⟩, hT⟩ := hs.undisturbed hu4
      obtain rfl : b = b' := Option.some.inj (hb.symm.trans hb')
      simp [withAttachmentCondition, hst, hbs', hid, hT]
    · simp [withAttachmentCondition, hst] at hne
  rcases Fate.answer_state ha with rfl | rfl
  · exact ⟨hi4, List.suffix_rfl, .ended⟩
  · exact ⟨hserved, hlog _ _, .ended⟩

/-- The patch that takes off the finalizer meets the lifetime that the pass was shown, if any. -/
def MeetsOwn (G : Job → Call → World → Bool) : Prop :=
  ∀ base obj w, G .pass (.api (.patch .attachment base obj)) w = true →
    ∀ b, w.cur = some b → b.spec.attachmentID = obj.spec.attachmentID

theorem releaseFinalizer_safe (hG : cfg.lag = true → MeetsOwn G) {a : NVMeVolumeAttachment}
    (hv : Holds cfg (some a) w) (hm : Marked a) (hnil : w.target.hosts = []) :
    (passTerms cfg G).Complies (releaseFinalizer a) w := by
  unfold releaseFinalizer
  split
  · rename_i hf
    refine .next (Q := fun _ _ => True) (.call (fun _ _ _ => trivial) fun w1 r w2 hu hi hs => ?_) fun _ _ _ => .ended
    obtain ⟨hg, ch, ha⟩ := answer_of_sem hs
    simp only [answer, Option.ite_none_right_eq_some] at ha
    obtain ⟨-, ha⟩ := ha
    have hv1 := hv.undisturbed hu
    have hread : Event.read (some a) ∈ w1.log := mem_of_lastRead hv1.last
    have hown : ∀ b, w1.cur = some b → b.spec = a.spec := by
      intro b hb
      cases hlag : cfg.lag with
      | true =>
        have hid : b.spec.attachmentID = a.spec.attachmentID := hG hlag _ _ _ hg b hb
        exact hi.unique _ _ (hi.created b (cur_mem_versions hb)).2 (hi.shown a hread) hid
      | false =>
        obtain ⟨b', hb', hbs', -⟩ := hv1.held a rfl (containsFinalizer_iff.1 hf) (.inl hlag)
        obtain rfl : b = b' := Option.some.inj (hb.symm.trans hb')
        exact hbs'
    have hserved : Inv cfg (w1.patch a (a.removeFinalizer Attachment.finalizer)).2 :=
      patch_served hi hv1.last hm (by rw [hu.target]; exact hnil) hown
    have hlog : w1.log <:+ (w1.patch a (a.removeFinalizer Attachment.finalizer)).2.log := by
      unfold World.patch
      cases w1.cur with
      | none => exact List.suffix_rfl
      | some b =>
        simp only
        split
        · exact List.suffix_rfl
        split
        · exact List.suffix_cons _ _
        · exact List.suffix_rfl
    rcases Fate.answer_state ha with rfl | rfl
    · exact ⟨hi, List.suffix_rfl, .ended⟩
    · exact ⟨hserved, hlog, .ended⟩
  · exact .ended

theorem reconcileAttachmentAccess_safe (hG : cfg.lag = true → MeetsOwn G) :
    (passTerms cfg G).Complies (reconcileAttachmentAccess cfg.partition cfg.backend) w := by
  refine .next attachmentForPartition_safe fun v w1 hr => ?_
  refine .andThen (reconcileHostAccess_safe (hr v rfl) rfl) (fun err w2 _ => ?_) fun _ w2 ⟨hv2, hT⟩ => ?_
  · cases v with
    | none => exact .ended
    | some a =>
      simp only [reportAccessFailure]
      split
      · exact .ended
      · exact .bind ((setAttachmentCondition_safe (by simp)).conseq fun _ _ _ _ => .ended)
  · have hT2 := hT rfl
    simp only [acknowledgeAccess]
    cases v with
    | none => exact .ended
    | some a =>
      simp only
      split
      · rename_i hm
        have hnil : w2.target.hosts = [] := by
          rw [hT2]
          simp [desiredHost, validAttachment, hm, wanted]
        exact releaseFinalizer_safe hG hv2 hm hnil
      · split
        · rename_i hm hval
          refine setAttachmentCondition_safe fun _ => ⟨a.spec, rfl, ?_⟩
          have hparts := hval
          simp only [validAttachment, Bool.and_eq_true, Bool.not_eq_eq_eq_not, Bool.not_true,
            containsFinalizer_iff, decide_eq_true_eq] at hparts
          obtain ⟨⟨⟨⟨-, hf⟩, -⟩, -⟩, hhost⟩ := hparts
          refine ⟨hv2.held a rfl hf (.inr hm), ?_⟩
          have hne : a.spec.hostNQN ≠ [] := by
            rw [hhost, Attachment.hostNQN]
            simp [str]
          rw [hT2]
          simp [desiredHost, hval, wanted, hne]
        · exact setAttachmentCondition_safe (by simp)

end

/-! ### All together -/

/-- What callers know for good of an attachment that they were given. -/
structure Known (cfg : Config) (a : NVMeVolumeAttachment) (log : List Event) : Prop where
  proper : Proper cfg a.spec
  created : Event.created a.spec [] ∈ log
  observed : a.status.observedAttachmentID ≠ [] →
    a.status.observedAttachmentID = a.spec.attachmentID ∧ Granted a.spec log

/-- The invariant, as callers see it. -/
def fencing (cfg : Config) (G : Job → Call → World → Bool) : View cfg G where
  Inv := Inv cfg
  Guar := Undisturbed
  Knows := Known cfg
  guar_refl := .refl
  guar_log := Undisturbed.log
  mono h hl := ⟨h.proper, hl.subset h.created, fun ho => ⟨(h.observed ho).1, (h.observed ho).2.mono hl⟩⟩
  known h hc := ⟨(h.created _ (cur_mem_versions hc)).1, (h.created _ (cur_mem_versions hc)).2, h.observed _ hc⟩
  create := by
    rintro w _ ch h ⟨nodeID, id, hnode, hid, rfl⟩ hf
    exact create_served h ch ⟨rfl, hnode, rfl, hid⟩ hf
  delete h _ _ _ := delete_served h _

/-- A publish for `req` returned the stored lifetime `s` of its own node, which had been granted access. -/
def Exclusive (cfg : Config) (req : PublishRequest) (resp : PublishResponse) (log : List Event) : Prop :=
  ∃ s, Proper cfg s ∧ s.nodeID = req.nodeID ∧ Granted s log ∧ resp = ⟨s.nodeID, s.hostNQN, s.attachmentID⟩

/-- What a finished call promises. -/
def Promise (cfg : Config) : Job → Result → World → Prop
  | .publish _ _ req, .publish (.ok resp), w => Exclusive cfg req resp w.log
  | _, _, _ => True

/-- **A lifetime that was seen to be ready had been granted access.** -/
theorem exclusive_of_published {req : PublishRequest} {resp : PublishResponse} {w : World} (hi : Inv cfg w)
    (h : Published (fencing cfg G) req (.ok resp) w.log) : Exclusive cfg req resp w.log := by
  obtain ⟨a, hk, hnode, ⟨current, hc, -, hobs⟩, hresp⟩ := h resp rfl
  have hne : current.status.observedAttachmentID ≠ [] := by
    rw [hobs]
    exact hk.proper.id
  obtain ⟨hid, hg⟩ := hc.observed hne
  have hspec : current.spec = a.spec := hi.unique _ _ hc.created hk.created (hid.symm.trans hobs)
  rw [hspec] at hg
  exact ⟨a.spec, hk.proper, hnode, hg, hresp⟩

/-- The proof outline: callers rely on the log only, a pass on being undisturbed. -/
def outline (cfg : Config) (G : Job → Call → World → Bool) : Outline ((machine cfg).guarded G).system where
  Inv := Inv cfg
  Rely
    | .pass => Undisturbed
    | _ => fun w w' => w.log <:+ w'.log
  Guar
    | .pass => fun w w' => w.log <:+ w'.log
    | _ => Undisturbed
  Req _ _ _ := True
  Post := Promise cfg
  rely_refl j w := by
    cases j with
    | pass => exact .refl w
    | _ => exact List.suffix_rfl
  rely_trans j := by
    cases j with
    | pass => exact .trans
    | _ => exact List.IsSuffix.trans
  init := by
    rintro w ⟨ha, ht, hh, hl⟩
    constructor <;> simp [ha, ht, hh, hl, World.cur, Feed.versions]
  env := by
    rintro w w' hi ⟨ch, hw⟩
    obtain ⟨hi', hu⟩ := administer_served hi hw
    refine ⟨hi', fun j => ?_⟩
    cases j with
    | pass => exact hu
    | _ => exact hu.log
  guar := by
    intro i j w w' htog hi hi' hg
    cases j with
    | pass =>
      cases i with
      | pass => simp [Machine.system, Machine.guarded, machine, Job.actor] at htog
      | _ => exact hg
    | _ =>
      cases i with
      | pass => exact hg
      | _ => exact hg.log

theorem body_safe (hG : cfg.lag = true → MeetsOwn G) (j : Job) (w : World) :
    (outline cfg G).Safe j ((outline cfg G).Post j) (body cfg j) w := by
  cases j with
  | publish rounds polls req =>
    refine .bind ((controllerPublishVolume_safe (V := fencing cfg G) rfl).conseq fun r w1 hi1 hr => ?_)
    refine .ret fun w2 hl hi2 => ?_
    rcases r with s | resp
    · trivial
    obtain ⟨s, hp, hnode, hg, hresp⟩ := exclusive_of_published hi1 hr
    exact ⟨s, hp, hnode, hg.mono hl, hresp⟩
  | unpublish polls req =>
    exact .bind ((controllerUnpublishVolume_safe (V := fencing cfg G) rfl).conseq fun _ _ _ _ => .ended)
  | pass => exact .bind ((reconcileAttachmentAccess_safe hG).conseq fun _ _ _ _ => .ended)

theorem kept (hG : cfg.lag = true → MeetsOwn G)
    (hc : ((machine cfg).guarded G).system.Reachable c) : (outline cfg G).Kept c :=
  Outline.Kept.reachable (fun j _ w _ _ => body_safe hG j w) hc

/-! ### What follows -/

/-- **At most one writer.**  If reads are not stale, then in every reachable state at most one host is
let in, only the host of the stored attachment of this volume, and every publish that returned
success was granted exclusive access. -/
theorem single_writer (cfg : Config) (hlag : cfg.lag = false) (hc : (machine cfg).system.Reachable c) :
    c.world.target.allowAnyHost = false ∧ c.world.target.hosts.length ≤ 1 ∧
    (∀ h ∈ c.world.target.hosts, ∃ a, c.world.cur = some a ∧ a.spec.hostNQN = h ∧
      a.spec.volumeRef = ⟨cfg.partition.metadata.name, cfg.partition.metadata.uid⟩) ∧
    ∀ rounds polls req resp, (Job.publish rounds polls req, .ret (.publish (.ok resp))) ∈ c.threads →
      ∃ s : NVMeVolumeAttachmentSpec, s.nodeID = req.nodeID ∧ s.hostNQN = Attachment.hostNQN req.nodeID ∧
        resp = ⟨s.nodeID, s.hostNQN, s.attachmentID⟩ ∧ Granted s c.world.log := by
  rw [← Machine.guarded_true (machine cfg)] at hc
  have hk := kept (fun h => absurd (hlag.symm.trans h) Bool.false_ne_true) hc
  have hi : Inv cfg c.world := hk.inv
  refine ⟨hi.closed, hi.exclusive, fun h hh => ?_, fun rounds polls req resp ht => ?_⟩
  · obtain ⟨a, ha, -, hah, -⟩ := hi.granted h hh
    exact ⟨a, ha, hah, (hi.created a (cur_mem_versions ha)).1.volume⟩
  · obtain ⟨s, hp, hnode, hg, hresp⟩ : Exclusive cfg req resp c.world.log := hk.post ht
    exact ⟨s, hnode, by rw [hp.host, hnode], hresp, hg⟩

end

section

attribute [local instance] asciiLib

open VolumeIdentity (sampleHandle)

/-- A volume on the SPDK backend. -/
def sampleConfig (lag : Bool) : Config where
  partition := {
    metadata := { ns := "ns", name := "vol", uid := "u1" }
    spec := { size := 1, targetBackend := "spdk" }
    status := { state := .exported, nqn := VolumeIdentity.nqn (str "vol-1") } }
  backend := Spdk.backend
  access := .inl rfl
  lag

def sampleWorld : World := ⟨⟨[], none⟩, ⟨false, [], true⟩, []⟩

def samplePublish (nodeID : Str) : Job :=
  .publish 2 2 ⟨sampleHandle, nodeID, [], some ⟨some ⟨[], []⟩, some .singleNodeWriter⟩⟩

def sampleUnpublish (nodeID : Str) : Job := .unpublish 2 ⟨sampleHandle, nodeID⟩

def serve : ℕ → ℕ → List (Act Job Choice) := Act.serve {}

/-- A publish for a node creates an attachment. -/
def publishCreates (nodeID id : Str) : List (Act Job Choice) :=
  List.flatten [[.start (samplePublish nodeID)], serve 0 2, [.run 0 { uuid := id }], serve 0 1]

/-- A pass begins; its cache moves on by `skip` versions. -/
def passReads (skip : ℕ) : List (Act Job Choice) := [.start .pass, .run 0 { skip }]

def succeeded : Job × Proc Result → Bool
  | (_, .ret (.publish (.ok _))) => true
  | _ => false

/-- A publish that is granted access. -/
theorem single_writer_published : ∃ c, (machine (sampleConfig false)).system.Reachable c ∧
    c.threads.any succeeded = true ∧
    ∃ h, c.world.target.hosts = [h] ∧ ∃ a, c.world.cur = some a ∧ a.spec.hostNQN = h := by
  obtain ⟨c, hc, hp⟩ := Machine.exists_reachable
    (publishCreates (str "n1") (str "a") ++ passReads 0 ++ serve 0 5 ++ serve 1 1) sampleWorld
    (fun c => c.threads.any succeeded && c.world.target.hosts.length = 1)
    (show (machine (sampleConfig false)).init sampleWorld from ⟨rfl, rfl, rfl, rfl⟩) (by decide +kernel)
  simp only [Bool.and_eq_true, decide_eq_true_eq] at hp
  obtain ⟨h, hh⟩ := List.length_eq_one_iff.1 hp.2
  obtain ⟨-, -, hs, -⟩ := single_writer (sampleConfig false) rfl hc
  obtain ⟨a, ha, hah, -⟩ := hs h (by simp [hh])
  exact ⟨c, hc, hp.1, h, hh, a, ha, hah⟩

end

/-! ### A lagging cache -/

/-- Where a patch of the finalizers meets an attachment, it is the lifetime that the patch is about. -/
def ownLifetime (_ : Job) (c : Call) (w : World) : Bool :=
  match c with
  | .api (.patch .attachment _ obj) => w.cur.all fun b => b.spec.attachmentID = obj.spec.attachmentID
  | _ => true

theorem meetsOwn_ownLifetime : MeetsOwn ownLifetime := by
  intro base obj w h b hb
  simpa [ownLifetime, hb] using h

/-- **Released in the right lifetime.**  In every run whose patches of the finalizers meet the lifetime
they are about, the finalizer is taken off only in a pass that was shown this lifetime as marked and
left nobody in, and only the host of the stored attachment is let in. -/
theorem released_own_lifetime [StdLib] (cfg : Config) (hc : ((machine cfg).guarded ownLifetime).system.Reachable c) :
    (∀ id acl before, Event.released id acl :: before <:+ c.world.log → ReleasedProperly id acl before) ∧
    ∀ h ∈ c.world.target.hosts, ∃ b, c.world.cur = some b ∧ Fenced b ∧ b.spec.hostNQN = h := by
  have hi : Inv cfg c.world := (kept (fun _ => meetsOwn_ownLifetime) hc).inv
  refine ⟨hi.released, fun h hh => ?_⟩
  obtain ⟨b, hb, hf, hbh, -⟩ := hi.granted h hh
  exact ⟨b, hb, hf, hbh⟩

/-- Some finalizer was taken off in a pass that was shown something else. -/
def strays : List Event → Bool
  | [] => false
  | .released id _ :: before =>
    (match lastRead before with
      | some (some r) => r.spec.attachmentID ≠ id
      | _ => true) || strays before
  | _ :: before => strays before

theorem exists_of_strays {log : List Event} (h : strays log = true) :
    ∃ id acl before, Event.released id acl :: before <:+ log ∧ ¬ ReleasedProperly id acl before := by
  induction log with
  | nil => cases h
  | cons e log ih =>
    have hrest : strays log = true →
        ∃ id acl before, Event.released id acl :: before <:+ e :: log ∧ ¬ ReleasedProperly id acl before := by
      intro hs
      obtain ⟨id, acl, before, hl, hr⟩ := ih hs
      exact ⟨id, acl, before, hl.trans (List.suffix_cons e log), hr⟩
    cases e with
    | released id acl =>
      rcases Bool.or_eq_true_iff.1 h with hr | hs
      · refine ⟨id, acl, log, List.suffix_rfl, ?_⟩
        rintro ⟨-, r, hlast, hid, -⟩
        simp [hlast, hid] at hr
      · exact hrest hs
    | _ => exact hrest h

section

attribute [local instance] asciiLib

theorem released_own_lifetime_granted : ∃ c, ((machine (sampleConfig true)).guarded ownLifetime).system.Reachable c ∧
    ∃ h, c.world.target.hosts = [h] ∧ ∃ b, c.world.cur = some b ∧ Fenced b ∧ b.spec.hostNQN = h := by
  obtain ⟨c, hc, hp⟩ := Machine.exists_reachable
    (publishCreates (str "n1") (str "a") ++ passReads 1 ++ serve 0 3) sampleWorld
    (fun c => c.world.target.hosts.length = 1)
    (show ((machine (sampleConfig true)).guarded ownLifetime).init sampleWorld from ⟨rfl, rfl, rfl, rfl⟩)
    (by decide +kernel)
  obtain ⟨h, hh⟩ := List.length_eq_one_iff.1 (by simpa using hp)
  exact ⟨c, hc, h, hh, (released_own_lifetime (sampleConfig true) hc).2 h (by simp [hh])⟩

/-- The lifetime `a` is deleted and released, `b` takes its place, and a pass that is still shown `a`
takes the finalizer off `b`.  A pass that is then shown `b` as it was lets its host in; the next
deletion removes `b` at once. -/
def lateRelease : List (Act Job Choice) :=
  List.flatten [publishCreates (str "n1") (str "a"), [.start (sampleUnpublish (str "n1"))], serve 0 3, passReads 2,
    serve 0 3, [.drop 0], publishCreates (str "n2") (str "b"), passReads 0, serve 0 3, [.drop 0], passReads 2,
    serve 0 5, [.start (sampleUnpublish (str "n2"))], serve 0 3]

/-- **A stale cache releases another lifetime**, and the host of an attachment that is gone stays let in. -/
theorem released_other_lifetime : ∃ c, (machine (sampleConfig true)).system.Reachable c ∧
    (∃ id acl before, Event.released id acl :: before <:+ c.world.log ∧ ¬ ReleasedProperly id acl before) ∧
    c.world.cur = none ∧ c.world.target.hosts = [Attachment.hostNQN (str "n2")] := by
  obtain ⟨c, hc, hp⟩ := Machine.exists_reachable lateRelease sampleWorld
    (fun c => strays c.world.log && c.world.cur.isNone &&
      decide (c.world.target.hosts = [Attachment.hostNQN (str "n2")]))
    (show (machine (sampleConfig true)).init sampleWorld from ⟨rfl, rfl, rfl, rfl⟩) (by decide +kernel)
  simp only [Bool.and_eq_true, Option.isNone_iff_eq_none, decide_eq_true_eq] at hp
  obtain ⟨⟨hs, hn⟩, hh⟩ := hp
  exact ⟨c, hc, exists_of_strays hs, hn, hh⟩

end

end Distort.Fencing
