import Distort.Fencing.Requests

/-!
Publish and unpublish calls under interference.

Between its requests a call relies on nothing but the log: what it has read may be gone when it
writes.  What an invariant has to offer for the calls to keep it is collected in `View`; the proofs
below are made once, for every such invariant.
-/

namespace Distort.Fencing

open Go Lib Lib.Kube Api Agent Csi Proc

variable [StdLib] {cfg : Config} {G : Job → Call → World → Bool} {j : Job}

theorem answer_of_sem {c : Call} {w w' : World} {r : c.Resp} (h : ((machine cfg).guarded G).system.sem j c w r w') :
    G j c w = true ∧ ∃ ch, answer cfg ch j c w = some (r, w') :=
  (Machine.sem_guarded _).1 h

/-- The object is one that a publish for this volume creates. -/
def Desired (cfg : Config) (obj : NVMeVolumeAttachment) : Prop :=
  ∃ nodeID id, nodeID ≠ [] ∧ id ≠ [] ∧ obj = desiredAttachment cfg.partition nodeID id

/-- A caller deletes on the grounds of the attachment it has read: an unpublish if it names the node
or no node, a publish if the attachment of another node carries the annotation that names it. -/
def Entitled (obj : NVMeVolumeAttachment) : Actor → Prop
  | .publish nodeID => obj.spec.nodeID ≠ nodeID ∧
    obj.annotation Attachment.forceDetachAnnotation = obj.spec.nodeID
  | .unpublish nodeID => nodeID = [] ∨ obj.spec.nodeID = nodeID
  | .agent => False

/-- An invariant that callers keep, what they may do to the state, and what they know for good of an
attachment that they were given. -/
structure View (cfg : Config) (G : Job → Call → World → Bool) where
  Inv : World → Prop
  Guar : World → World → Prop
  Knows : NVMeVolumeAttachment → List Event → Prop
  guar_refl : ∀ w, Guar w w
  guar_log : ∀ {w w'}, Guar w w' → w.log <:+ w'.log
  mono : ∀ {a l l'}, Knows a l → l <:+ l' → Knows a l'
  known : ∀ {w a}, Inv w → w.cur = some a → Knows a w.log
  create : ∀ {w obj} ch, Inv w → Desired cfg obj → w.fresh obj.spec.attachmentID = true →
    Inv (w.create ch obj).2 ∧ Guar w (w.create ch obj).2
  delete : ∀ {w obj j}, Inv w → Knows obj w.log → Entitled obj j.actor →
    G j (.api (.delete .attachment obj)) w = true →
    Inv (w.delete j.actor).2 ∧ Guar w (w.delete j.actor).2

/-- The terms of a publish or unpublish call. -/
def View.terms (V : View cfg G) (j : Job) : Terms Call Call.Resp World where
  sem := ((machine cfg).guarded G).system.sem j
  Inv := V.Inv
  Rely w w' := w.log <:+ w'.log
  Guar := V.Guar
  Req _ _ := True
  rely_refl w := V.guar_log (V.guar_refl w)
  rely_trans := List.IsSuffix.trans

/-! ### One request -/

section

variable {V : View cfg G} {w : World}

theorem caller_call {c : Call} {Q : c.Resp → World → Prop} (hQ : ∀ r w1 w2, Q r w1 → w1.log <:+ w2.log → Q r w2)
    (hstep : ∀ ch w1 r w2, V.Inv w1 → answer cfg ch j c w1 = some (r, w2) →
      V.Inv w2 ∧ V.Guar w1 w2 ∧ Q r w2) : (V.terms j).Safe Q (.call c .ret) w := by
  refine .call (fun _ _ _ => trivial) fun w1 r w2 hl hi hs => ?_
  obtain ⟨-, ch, ha⟩ := answer_of_sem hs
  obtain ⟨hi2, hu, hk⟩ := hstep ch w1 r w2 hi ha
  exact ⟨hi2, hu, .ret fun w3 hl3 _ => hQ r w2 w3 hk hl3⟩

variable {key : Key}

theorem caller_getPartition :
    (V.terms j).Safe (fun r _ => ∀ p, r = .ok p → p = cfg.partition) (get .partition .api key) w := by
  refine caller_call (fun _ _ _ h _ => h) fun ch w1 r w2 hi ha => ?_
  have hw : w2 = w1 := (Fate.answer_state ha).elim id id
  subst hw
  refine ⟨hi, V.guar_refl _, ?_⟩
  rintro p rfl
  have := congrArg Prod.fst (Fate.answer_ok ha)
  by_cases hk : key = cfg.partition.key
  · simpa [hk] using this.symm
  · simp [hk] at this

theorem caller_get : (V.terms j).Safe (fun r w' => ∀ a, r = .ok a → V.Knows a w'.log) (get .attachment .api key) w := by
  refine caller_call (fun _ _ _ h hl a ha => V.mono (h a ha) hl) fun ch w1 r w2 hi ha => ?_
  simp only [answer, Option.ite_none_right_eq_some] at ha
  obtain ⟨-, ha⟩ := ha
  have hw : w2 = w1 := (Fate.answer_state ha).elim id id
  subst hw
  refine ⟨hi, V.guar_refl _, ?_⟩
  rintro a rfl
  have := congrArg Prod.fst (Fate.answer_ok ha)
  cases hc : w2.cur with
  | none => simp [hc, found] at this
  | some b =>
    obtain rfl : b = a := by simpa [hc, found] using this
    exact V.known hi hc

theorem caller_create {obj : NVMeVolumeAttachment} (hp : Desired cfg obj) :
    (V.terms j).Safe (fun r w' => ∀ a, r = .ok a → V.Knows a w'.log) (create .attachment obj) w := by
  refine caller_call (fun _ _ _ h hl a ha => V.mono (h a ha) hl) fun ch w1 r w2 hi ha => ?_
  simp only [answer, Option.ite_none_right_eq_some] at ha
  obtain ⟨⟨-, hf⟩, ha⟩ := ha
  have hserved := V.create ch hi hp hf
  have hkept : V.Inv w2 ∧ V.Guar w1 w2 := by
    rcases Fate.answer_state ha with rfl | rfl
    · exact ⟨hi, V.guar_refl _⟩
    · exact hserved
  refine ⟨hkept.1, hkept.2, ?_⟩
  rintro a rfl
  have heq := Fate.answer_ok ha
  refine V.known hkept.1 ?_
  cases hc : w1.cur with
  | some b => simp [World.create, hc] at heq
  | none =>
    simp only [World.create, hc, Prod.mk.injEq, Except.ok.injEq] at heq
    obtain ⟨rfl, rfl⟩ := heq
    rfl

theorem caller_delete {obj : NVMeVolumeAttachment} (hk : V.Knows obj w.log) (he : Entitled obj j.actor) :
    (V.terms j).Complies (delete .attachment obj) w := by
  refine .call (fun _ _ _ => trivial) fun w1 r w2 hl hi hs => ?_
  obtain ⟨hg, ch, ha⟩ := answer_of_sem hs
  simp only [answer, Option.ite_none_right_eq_some] at ha
  rcases Fate.answer_state ha.2 with rfl | rfl
  · exact ⟨hi, V.guar_refl _, .ended⟩
  · obtain ⟨hi2, hu⟩ := V.delete hi (V.mono hk hl) he hg
    exact ⟨hi2, hu, .ended⟩

theorem caller_select : (V.terms j).Complies select w := by
  refine caller_call (fun _ _ _ _ _ => trivial) fun ch w1 r w2 hi ha => ?_
  simp only [answer, Option.some.injEq, Prod.mk.injEq] at ha
  obtain ⟨-, rfl⟩ := ha
  exact ⟨hi, V.guar_refl _, trivial⟩

theorem caller_newUUID : (V.terms j).Safe (fun id _ => id ≠ []) newUUID w := by
  refine caller_call (fun _ _ _ h _ => h) fun ch w1 r w2 hi ha => ?_
  simp only [answer, Option.ite_none_left_eq_some, Option.some.injEq, Prod.mk.injEq] at ha
  obtain ⟨hne, rfl, rfl⟩ := ha
  exact ⟨hi, V.guar_refl _, hne⟩

/-! ### Polling -/

/-- A wait that succeeds has read a version that is complete. -/
def Polled (V : View cfg G) (complete : Option NVMeVolumeAttachment → Except Status Bool) (r : Except Status Unit)
    (w : World) : Prop :=
  r = .ok () → ∃ v, (∀ a, v = some a → V.Knows a w.log) ∧ complete v = .ok true

variable {complete : Option NVMeVolumeAttachment → Except Status Bool} {msg : String}

theorem pollAttachmentOnce_safe {again : Proc (Except Status Unit)}
    (hagain : ∀ w', (V.terms j).Safe (Polled V complete) again w') :
    (V.terms j).Safe (Polled V complete) (pollAttachmentOnce key complete msg again) w := by
  refine .bind (caller_get.conseq fun r w1 _ hr => ?_)
  have hfail : ∀ s w', (V.terms j).Safe (Polled V complete) (fail s) w' := fun s w' => .ret fun _ _ _ => nofun
  dsimp only
  split
  · exact hfail _ w1
  · rename_i hdone
    -- what was read, and found complete
    refine .ret fun w2 hl2 _ _ => ?_
    cases r with
    | ok a => exact ⟨some a, by rintro b ⟨⟩; exact V.mono (hr a rfl) hl2, hdone⟩
    | error err =>
      simp only at hdone
      split at hdone
      · exact ⟨none, nofun, hdone⟩
      · cases hdone
  · refine .bind (caller_select.conseq fun tick w2 _ _ => ?_)
    cases tick with
    | done err => exact hfail _ w2
    | timer => exact hfail _ w2
    | ticker => exact hagain w2

theorem pollAttachment_safe (polls : ℕ) :
    (V.terms j).Safe (Polled V complete) (pollAttachment key complete msg polls) w := by
  induction polls generalizing w with
  | zero => exact pollAttachmentOnce_safe fun _ => .ret fun _ _ _ => nofun
  | succ n ih => exact pollAttachmentOnce_safe fun _ => ih

variable {polls : ℕ}

/-- The status of the stored attachment was seen to report access for the lifetime `id`. -/
def Ready (V : View cfg G) (id : Str) (log : List Event) : Prop :=
  ∃ a, V.Knows a log ∧ a.metadata.deletionTimestamp = false ∧ a.status.observedAttachmentID = id

theorem Ready.mono {id : Str} {l l' : List Event} (h : Ready V id l) (hl : l <:+ l') : Ready V id l' := by
  obtain ⟨a, ha, hd, ho⟩ := h
  exact ⟨a, V.mono ha hl, hd, ho⟩

theorem waitForAttachmentReady_safe {id : Str} :
    (V.terms j).Safe (fun r w' => r = .ok () → Ready V id w'.log) (waitForAttachmentReady polls key id) w := by
  refine (pollAttachment_safe polls).conseq fun r w1 _ h hr => ?_
  obtain ⟨v, hv, hc⟩ := h hr
  cases v with
  | none => simp [attachmentReady] at hc
  | some a =>
    simp only [attachmentReady] at hc
    split at hc
    · cases hc
    rename_i hd
    simp only [Except.ok.injEq, Bool.and_eq_true, decide_eq_true_eq] at hc
    exact ⟨a, hv a rfl, by simpa using hd, hc.1⟩

/-! ### The programs -/

theorem partitionForVolumeHandle_safe {volumeID : Str} :
    (V.terms j).Safe (fun r _ => ∀ p, r = .ok p → p = cfg.partition) (partitionForVolumeHandle volumeID) w := by
  have hfail : ∀ (s : Status) w1, (V.terms j).Safe (fun r _ => ∀ p, r = .ok p → p = cfg.partition) (fail s) w1 :=
    fun s w1 => .ret fun _ _ _ => by simp
  unfold partitionForVolumeHandle
  cases VolumeIdentity.parseVolumeHandle volumeID with
  | error err => exact hfail _ w
  | ok reference =>
    refine .andThen caller_getPartition (fun err w1 _ => ?_) fun p w1 hr => ?_
    · split
      · exact hfail _ w1
      · exact hfail _ w1
    split
    · exact hfail _ w1
    · exact .ret fun w2 _ _ q hq => hr q (congrArg Except.ok (Except.ok.inj hq))

/-- What a publish for `req` that succeeds has seen. -/
def Published (V : View cfg G) (req : PublishRequest) (r : Except Status PublishResponse) (log : List Event) : Prop :=
  ∀ resp, r = .ok resp → ∃ a, V.Knows a log ∧ a.spec.nodeID = req.nodeID ∧ Ready V a.spec.attachmentID log ∧
    resp = ⟨a.spec.nodeID, a.spec.hostNQN, a.spec.attachmentID⟩

variable {req : PublishRequest}

theorem publish_fail (s : Status) : (V.terms j).Safe (fun r w1 => Published V req r w1.log) (fail s) w :=
  .ret fun _ _ _ => nofun

theorem publishExisting_safe {again : Proc (Except Status PublishResponse)}
    {existing : NVMeVolumeAttachment} (hj : j.actor = .publish req.nodeID) (hk : V.Knows existing w.log)
    (hagain : ∀ w', (V.terms j).Safe (fun r w1 => Published V req r w1.log) again w') :
    (V.terms j).Safe (fun r w1 => Published V req r w1.log)
      (publishExisting polls req cfg.partition again existing) w := by
  have hwait : ∀ w1, (V.terms j).Safe (fun r w2 => Published V req r w2.log)
      ((waitForAttachmentDeleted polls (attachmentKey cfg.partition)).check fail fun _ => again) w1 :=
    fun w1 => .andThen (pollAttachment_safe polls) (fun s _ _ => publish_fail s) fun _ w2 _ => hagain w2
  unfold publishExisting
  simp only
  split
  · exact publish_fail _
  split
  · exact hwait w
  split
  · rename_i hnode
    split
    · exact publish_fail _
    -- a takeover: delete whatever has the name, then wait
    rename_i hforce
    have he : Entitled existing j.actor := by
      rw [hj]
      exact ⟨hnode, not_not.1 hforce⟩
    exact .andThen (.next (caller_delete hk he) fun _ _ _ => .ended) (fun _ _ _ => publish_fail _) fun _ w1 _ => hwait w1
  · rename_i hnode
    refine .andThen (waitForAttachmentReady_safe.since V.guar_log) (fun s _ _ => publish_fail s) fun _ w1 ⟨hg, hl1⟩ => ?_
    refine .ret fun w2 hl2 _ => ?_
    rintro resp ⟨⟩
    exact ⟨existing, V.mono hk (hl1.trans hl2), not_not.1 hnode, (hg rfl).mono hl2, rfl⟩

theorem publishLoop_safe {polls rounds : ℕ} (hj : j.actor = .publish req.nodeID) (hnode : req.nodeID ≠ []) :
    (V.terms j).Safe (fun r w1 => Published V req r w1.log) (publishLoop polls req cfg.partition rounds) w := by
  induction rounds generalizing w with
  | zero => exact .call (fun _ _ _ => trivial) nofun
  | succ n ih =>
    refine .andThen caller_get (fun err w1 _ => ?_) fun a w1 hr => publishExisting_safe hj (hr a rfl) fun _ => ih
    split
    · refine .bind (caller_newUUID.conseq fun id w2 _ hid => ?_)
      refine .andThen (caller_create ⟨_, id, hnode, hid, rfl⟩) (fun err w3 _ => ?_) fun a w3 hr =>
        publishExisting_safe hj (hr a rfl) fun _ => ih
      split
      · exact ih
      · exact publish_fail _
    · exact publish_fail _

theorem controllerPublishVolume_safe {rounds polls : ℕ} (hj : j.actor = .publish req.nodeID) :
    (V.terms j).Safe (fun r w1 => Published V req r w1.log) (controllerPublishVolume rounds polls req) w := by
  unfold controllerPublishVolume
  split
  · exact publish_fail _
  rename_i hne
  split
  · exact publish_fail _
  refine .andThen partitionForVolumeHandle_safe (fun s _ _ => publish_fail s) fun p w1 hr => ?_
  obtain rfl := hr p rfl
  split
  · exact publish_fail _
  · exact publishLoop_safe hj fun hnil => hne (.inr hnil)

theorem controllerUnpublishVolume_safe {req : UnpublishRequest} (hj : j.actor = .unpublish req.nodeID) :
    (V.terms j).Complies (controllerUnpublishVolume polls req) w := by
  unfold controllerUnpublishVolume
  split
  · exact .ended
  refine .andThen partitionForVolumeHandle_safe (fun s w1 _ => ?_) fun p w1 hr => ?_
  · split
    · exact .ended
    · exact .ended
  obtain rfl := hr p rfl
  refine .andThen caller_get (fun err w2 _ => ?_) fun existing w2 hr => ?_
  · split
    · exact .ended
    · exact .ended
  split
  · exact .ended
  rename_i hnode
  have he : Entitled existing j.actor := by
    rw [hj]
    by_cases hnil : req.nodeID = []
    · exact .inl hnil
    · exact .inr (by_contra fun hne => hnode ⟨hnil, hne⟩)
  exact .next (.next (caller_delete (hr existing rfl) he) fun _ _ _ => .ended) fun _ w3 _ =>
    .next (pollAttachment_safe polls) fun _ _ _ => .ended

end

end Distort.Fencing
