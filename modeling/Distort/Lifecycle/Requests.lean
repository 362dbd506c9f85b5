import Distort.Lifecycle.Invariant

/-!
What requests to SPDK and the doings of others leave of the invariant, and the rules for the requests
of a pass.
-/

namespace Distort.Lifecycle

open Go Lib Lib.Kube Api Agent Proc

variable {w w' : World} {key : Key}

/-! ### The drives -/

/-- The objects are the same, and the stores stay. -/
structure Aside (w w' : World) : Prop where
  partitions : w'.partitions = w.partitions
  created : w'.created = w.created
  log : w'.log = w.log
  stores : StoresKept w w'

theorem Aside.steady (h : Aside w w') (key : Key) : Steady key w w' := by
  refine ⟨fun hf => ?_, fun p hp => ?_, h.stores⟩
  · unfold Fenced
    rw [h.partitions]
    exact hf
  · unfold Seen
    rw [h.partitions, h.created]
    exact hp

theorem aside_setMedium {bdev : Str} {m : Medium}
    (hm : ∀ st, (w.media bdev).store = some st → ∃ st', m.store = some st' ∧ st'.name = st.name) :
    Aside w (w.setMedium bdev m) := by
  refine ⟨rfl, rfl, rfl, fun bdev' st hst => ?_⟩
  by_cases hb : bdev' = bdev
  · subst hb
    simpa [World.setMedium] using hm st hst
  · exact ⟨st, by simpa [World.setMedium, hb] using hst, rfl⟩

theorem noneAdded_setMedium {bdev : Str} {m : Medium}
    (hm : ∀ st', m.store = some st' → ∀ l ∈ st'.lvols, ∃ st, (w.media bdev).store = some st ∧ l ∈ st.lvols) :
    NoneAdded w (w.setMedium bdev m) := by
  intro bdev' st' hst' l hl
  by_cases hb : bdev' = bdev
  · subst hb
    simp only [World.setMedium, Function.update_self] at hst'
    exact hm st' hst' l hl
  · simp only [World.setMedium, Function.update_of_ne hb] at hst'
    exact ⟨st', hst', hl⟩

theorem aside_refl (w : World) : Aside w w := ⟨rfl, rfl, rfl, .refl w⟩

variable [StdLib] {s : Setting}

theorem Inv.aside (h : Inv s w) (ha : Aside w w') : Inv s w' := by
  obtain ⟨hp, hc, hl, hs⟩ := ha
  refine ⟨fun key p hmem => ?_, fun key => ?_, fun key hun v hv => ?_, fun hspdk key present hmem => ?_⟩
  · rw [hp] at hmem
    exact (h.sound key p hmem).mono hs
  · rw [hp]
    exact h.order key
  · rw [hc] at hun
    rw [hp] at hv
    exact h.unused key hun v hv
  · rw [hl] at hmem
    exact h.clean hspdk key present hmem

theorem mem_stores {d : Drive} {st : LvolStore} :
    (d, st) ∈ w.stores s ↔ d ∈ s.hardware ∧ (w.media d.bdev).attached = true ∧ (w.media d.bdev).store = some st := by
  simp only [World.stores, World.attached, List.mem_filterMap, List.mem_filter, Option.map_eq_some_iff, Prod.mk.injEq]
  constructor
  · rintro ⟨d', ⟨hd, ha⟩, st', hst, rfl, rfl⟩
    exact ⟨hd, ha, hst⟩
  · rintro ⟨hd, ha, hst⟩
    exact ⟨d, ⟨hd, ha⟩, st, hst, rfl, rfl⟩

theorem attachController_aside (name pciAddress : Str) :
    Aside w (w.attachController s name pciAddress).2 ∧ NoneAdded w (w.attachController s name pciAddress).2 := by
  unfold World.attachController
  split
  · exact ⟨aside_refl w, .refl w⟩
  split
  · exact ⟨aside_refl w, .refl w⟩
  · exact ⟨aside_setMedium fun st hst => ⟨st, hst, rfl⟩, noneAdded_setMedium fun st hst l hl => ⟨st, hst, hl⟩⟩

theorem createLvstore_aside (uuid bdev name : Str) :
    Aside w (w.createLvstore s uuid bdev name).2 ∧ NoneAdded w (w.createLvstore s uuid bdev name).2 := by
  unfold World.createLvstore
  split
  · exact ⟨aside_refl w, .refl w⟩
  split
  · exact ⟨aside_refl w, .refl w⟩
  rename_i hnone
  refine ⟨aside_setMedium fun st hst => ?_, noneAdded_setMedium fun st hst l hl => ?_⟩
  · rw [hnone] at hst
    cases hst
  · cases hst
    cases hl

theorem createLvol_aside (uuid lvstore name : Str) (sizeMiB : ℤ) :
    Aside w (w.createLvol s uuid lvstore name sizeMiB).2 := by
  unfold World.createLvol
  split
  · exact aside_refl w
  rename_i d st hfind
  obtain ⟨-, -, hst⟩ := mem_stores.1 (List.mem_of_find?_eq_some hfind)
  split
  · exact aside_refl w
  refine aside_setMedium fun st' hst' => ?_
  rw [hst] at hst'
  cases hst'
  exact ⟨_, rfl, rfl⟩

theorem deleteLvol_aside (name : Str) : Aside w (w.deleteLvol s name).2 ∧ NoneAdded w (w.deleteLvol s name).2 := by
  unfold World.deleteLvol
  split
  · exact ⟨aside_refl w, .refl w⟩
  rename_i d st hfind
  obtain ⟨-, -, hst⟩ := mem_stores.1 (List.mem_of_find?_eq_some hfind)
  refine ⟨aside_setMedium fun st' hst' => ?_, noneAdded_setMedium fun st' hst' l hl => ?_⟩
  · rw [hst] at hst'
    cases hst'
    exact ⟨_, rfl, rfl⟩
  · cases hst'
    exact ⟨st, hst, (List.mem_filter.1 hl).1⟩

/-! ### Others -/

theorem Inv.create (h : Inv s w) {obj : NVMePartition} (hw : w.change s (.create key obj) = some w') :
    Inv s w' ∧ ∀ key', Rely key' w w' := by
  simp only [World.change, Option.ite_none_right_eq_some, Option.some.injEq] at hw
  obtain ⟨⟨hun, hns, hname, hfits⟩, rfl⟩ := hw
  have hnone : ∀ v ∈ (w.partitions key).versions, v = none := h.unused key hun
  have hsound : Sound s key w (World.fresh s key obj) :=
    ⟨rfl, ⟨hns, hname⟩, rfl, .inl rfl, .inl rfl, fun _ => ⟨rfl, rfl⟩, fun _ hne => absurd rfl hne, hfits⟩
  have hver : ∀ key', (({ w.store key (some (World.fresh s key obj)) with
      created := key :: w.created } : World).partitions key').versions =
      if key' = key then (w.partitions key).versions ++ [some (World.fresh s key obj)]
      else (w.partitions key').versions := fun key' => versions_store w key key' _
  refine ⟨⟨fun key' p hp => ?_, fun key' => ?_, fun key' hun' v hv => ?_, h.clean⟩,
    fun key' => ⟨⟨fun hf => ?_, fun p hp => ⟨List.mem_cons_of_mem _ hp.1, fun q hq => ?_⟩, .refl w⟩, .refl w⟩⟩
  · rw [hver] at hp
    split at hp
    · rename_i heq
      subst heq
      rcases List.mem_append.1 hp with hold | hnew
      · cases hnone _ hold
      · cases List.mem_singleton.1 hnew
        exact hsound.mono (.refl w)
    · exact (h.sound key' p hp).mono (.refl w)
  · rw [hver]
    split
    · refine List.pairwise_append.2 ⟨h.order key, List.pairwise_singleton _ _, fun v hv _ _ => ?_⟩
      rintro p rfl
      cases hnone _ hv
    · exact h.order key'
  · rw [hver] at hv
    obtain ⟨hne, hun'⟩ := not_or.1 (fun hor => hun' (List.mem_cons.2 hor))
    rw [if_neg hne] at hv
    exact h.unused key' hun' v hv
  · obtain ⟨q, hq, hf⟩ := hf
    have hne : key' ≠ key := by
      rintro rfl
      rw [hnone _ (Feed.cur_mem _)] at hq
      cases hq
    refine ⟨q, ?_, hf⟩
    rw [← hq]
    exact (cur_store w key key' _).trans (if_neg hne)
  · have hne : key' ≠ key := by
      rintro rfl
      exact hun hp.1
    rw [hver, if_neg hne] at hq
    exact hp.2 q hq

theorem Inv.delete (h : Inv s w) (hw : w.change s (.delete key) = some w') : Inv s w' ∧ ∀ key', Rely key' w w' := by
  obtain ⟨q, hq, rfl⟩ := Option.map_eq_some_iff.1 hw
  have hkeep : partitionFinalizer ∈ q.metadata.finalizers → Carries q.delete := by
    intro hf
    cases hd : q.delete with
    | none =>
      rw [delete_eq_none hd] at hf
      cases hf
    | some q' =>
      obtain ⟨-, -, hfs, -⟩ := delete_eq_some hd
      exact ⟨q', rfl, hfs ▸ hf⟩
  have hlater : ∀ q', q.delete = some q' → Sound s key w q' ∧ Later q q' := by
    intro q' hd
    obtain ⟨-, hmark, -, -, huid, hkey, hspec, hstatus⟩ := delete_eq_some hd
    have hsound := h.sound_cur hq
    refine ⟨⟨hkey.trans hsound.key_eq, hsound.named, huid.trans hsound.uid, ?_, ?_, ?_, ?_, ?_⟩, fun _ => hmark, ?_⟩
    · exact hstatus ▸ hsound.externalID
    · exact hstatus ▸ hsound.nqn
    · exact hstatus ▸ hsound.blank
    · exact hstatus ▸ hsound.stands
    · exact hspec ▸ hsound.fits
    · exact fun hne => hstatus ▸ hne
  exact ⟨h.store hq hlater (.inl hkeep), rely_store hq (fun q' hd => (hlater q' hd).2) hkeep⟩

theorem Inv.write (h : Inv s w) {obj : NVMePartition} (hw : w.change s (.write key obj) = some w') :
    Inv s w' ∧ ∀ key', Rely key' w w' := by
  simp only [World.change] at hw
  cases hq : (w.partitions key).cur with
  | none => simp [hq] at hw
  | some q =>
    simp only [hq, Option.ite_none_right_eq_some, Option.some.injEq] at hw
    obtain ⟨⟨hfits, hfs⟩, rfl⟩ := hw
    have hkeep : partitionFinalizer ∈ q.metadata.finalizers → Carries (World.written q obj).settle := by
      intro hf
      have hmem : partitionFinalizer ∈ (World.written q obj).metadata.finalizers :=
        containsFinalizer_iff.1 (hfs.trans (containsFinalizer_iff.2 hf))
      exact ⟨_, settle_of_mem hmem, hmem⟩
    have hlater : ∀ q', (World.written q obj).settle = some q' → Sound s key w q' ∧ Later q q' := by
      intro q' hq'
      rw [settle_eq_some hq']
      have hsound := h.sound_cur hq
      exact ⟨⟨hsound.key_eq, hsound.named, hsound.uid, hsound.externalID, hsound.nqn, hsound.blank, hsound.stands, hfits⟩,
        id, id⟩
    exact ⟨h.store hq hlater (.inl hkeep), rely_store hq (fun q' hq' => (hlater q' hq').2) hkeep⟩

theorem Inv.change (h : Inv s w) {ch : Change} (hw : w.change s ch = some w') : Inv s w' ∧ ∀ key, Rely key w w' := by
  cases ch with
  | create key obj => exact h.create hw
  | delete key => exact h.delete hw
  | write key obj => exact h.write hw
  | restart =>
    cases hw
    have ha : Aside w { w with media := fun bdev => { w.media bdev with attached := false } } :=
      ⟨rfl, rfl, rfl, fun _ st hst => ⟨st, hst, rfl⟩⟩
    exact ⟨h.aside ha, fun key => ⟨ha.steady key, fun _ st hst l hl => ⟨st, hst, hl⟩⟩⟩
  | attach bdev =>
    cases hw
    have ha : Aside w (w.setMedium bdev { w.media bdev with attached := true }) :=
      aside_setMedium fun st hst => ⟨st, hst, rfl⟩
    exact ⟨h.aside ha, fun key => ⟨ha.steady key, noneAdded_setMedium fun st hst l hl => ⟨st, hst, hl⟩⟩⟩

/-! ### The calls of a pass -/

/-- The call names the volume with this external ID, if it names one. -/
def names (externalID : Str) : PluginCall → Bool
  | .createVolume _ _ volumeName _ => volumeName = externalID
  | .exportVolume volumeName _ _ _ _ => volumeName = externalID
  | .deleteVolume _ _ volumeName _ => volumeName = externalID
  | .unexportVolume nqn => nqn = Distort.VolumeIdentity.nqn externalID
  | _ => true

/-- The call leaves something behind that has to be cleaned up. -/
def leavesVolume : PluginCall → Bool
  | .createVolume _ _ _ _ | .exportVolume _ _ _ _ _ => true
  | _ => false

/-- What has to hold when a pass makes a call. -/
def Req (s : Setting) (key : Key) (c : Call) (w : World) : Prop :=
  match c with
  | .plugin c => names (s.externalID key) c = true ∧ (leavesVolume c = true → Fenced key w)
  | _ => True

/-- A call that cannot harm, whatever it is answered. -/
def neutral : Call → Bool
  | .api (.patch .partition _ _) | .api (.patchStatus .partition _ _) => false
  | .rpc (.bdevLvolCreate _ _ _) => false
  | .plugin (.exportVolume _ _ _ _ _) | .plugin (.unexportVolume _) | .plugin (.createVolume _ _ _ _)
  | .plugin (.deleteVolume _ _ _ _) => false
  | _ => true

theorem req_of_neutral {c : Call} (hc : neutral c = true) : Req s key c w := by
  cases c with
  | plugin c' =>
    cases c' with
    | exportVolume | unexportVolume | createVolume | deleteVolume => exact absurd hc Bool.false_ne_true
    | _ => exact ⟨rfl, fun h => absurd h Bool.false_ne_true⟩
  | _ => trivial

theorem rpc_neutral (h : Inv s w) {ch : Choice} {c : Rpc} {r : c.Resp} (hc : neutral (.rpc c) = true)
    (ha : w.rpc s ch c = some (r, w')) : Inv s w' ∧ ∀ key, Rely key w w' := by
  have hmove : ∀ w1, Aside w w1 ∧ NoneAdded w w1 → (w' = w ∨ w' = w1) → Inv s w' ∧ ∀ key, Rely key w w' := by
    rintro w1 ⟨haside, hnone⟩ (rfl | rfl)
    · exact ⟨h, fun key => .refl key _⟩
    · exact ⟨h.aside haside, fun key => ⟨haside.steady key, hnone⟩⟩
  have hsame : w' = w → Inv s w' ∧ ∀ key, Rely key w w' := by
    rintro rfl
    exact ⟨h, fun key => .refl key _⟩
  unfold World.rpc at ha
  split at ha
  · exact hsame ((Fate.answerWith_state ha).elim id id)
  · exact hmove _ (attachController_aside _ _) (Fate.answerWith_state ha)
  · exact hsame ((Fate.answerWith_state ha).elim id id)
  · exact hsame ((Fate.answerWith_state ha).elim id id)
  · exact hsame ((Fate.answerWith_state ha).elim id id)
  · exact hmove _ (createLvstore_aside _ _ _) (Fate.answerWith_state ha)
  · exact absurd hc Bool.false_ne_true
  · exact hmove _ (deleteLvol_aside _) (Fate.answerWith_state ha)
  · obtain ⟨r', -, heq⟩ := Option.map_eq_some_iff.1 ha
    exact hsame (Prod.mk.inj heq).2.symm

theorem answer_neutral (j : Key) (h : Inv s w) {ch : Choice} {c : Call} {r : c.Resp} (hc : neutral c = true)
    (ha : answer s ch j c w = some (r, w')) : Inv s w' ∧ ∀ key, Rely key w w' := by
  have hsame : w' = w → Inv s w' ∧ ∀ key, Rely key w w' := by
    rintro rfl
    exact ⟨h, fun key => .refl key _⟩
  unfold answer at ha
  split at ha
  · rcases Fate.answerWith_state ha with rfl | rfl
    · exact hsame rfl
    · exact ⟨(getCached_served h ch.skip _).1, (getCached_served h ch.skip _).2.1⟩
  · exact absurd hc Bool.false_ne_true
  · exact absurd hc Bool.false_ne_true
  · exact rpc_neutral h hc ha
  · obtain ⟨r', -, heq⟩ := Option.map_eq_some_iff.1 ha
    exact hsame (Prod.mk.inj heq).2.symm
  · exact absurd hc Bool.false_ne_true
  · obtain ⟨r', -, heq⟩ := Option.map_eq_some_iff.1 ha
    exact hsame (Prod.mk.inj heq).2.symm

/-- The outline of all passes: they run one after the other, so that none has to mind another. -/
def outline (s : Setting) : Outline ((machine s).guarded (attachedWhenListing s)).system where
  Inv := Inv s
  Rely := Rely
  Guar _ _ _ := True
  Req := Req s
  Post _ _ _ := True
  rely_refl := .refl
  rely_trans _ := .trans
  init := by
    rintro w ⟨hc, hp, hl⟩
    have hver : ∀ key, (w.partitions key).versions = [none] := fun key => by rw [hp key]; rfl
    refine ⟨fun key p hmem => ?_, fun key => ?_, fun key _ v hv => ?_, fun _ key present hmem => ?_⟩
    · rw [hver] at hmem
      cases List.mem_singleton.1 hmem
    · rw [hver]
      exact List.pairwise_singleton _ _
    · rw [hver] at hv
      exact List.mem_singleton.1 hv
    · rw [hl] at hmem
      cases hmem
  env := by
    rintro w w' hi ⟨ch, hw⟩
    exact hi.change hw
  guar i j w w' htog := by
    simp [Machine.system, Machine.guarded, machine] at htog

variable {I : World → Prop}

theorem neutral_safe {α : Type} {p : Proc α} (hp : p.Only (neutral ·)) (hw : I w)
    (hI : ∀ w1 w2, I w1 → Rely key w1 w2 → I w2) : (outline s).Safe key (fun _ => I) p w := by
  refine .of_only hp hw hI (fun c w1 hc _ _ => req_of_neutral hc) ?_
  intro c w1 r w2 hc hi hI1 hs
  obtain ⟨-, ch, ha⟩ := (Machine.sem_guarded (machine s)).1 hs
  obtain ⟨hi2, hr⟩ := answer_neutral key hi hc ha
  exact ⟨hi2, trivial, hI w1 w2 hI1 (hr key)⟩

theorem getPartition_safe (hw : I w) (hI : ∀ w1 w2, I w1 → Rely key w1 w2 → I w2) :
    (outline s).Safe key (fun r w1 => I w1 ∧ ∀ p, r = .ok p → Sound s key w1 p ∧ Seen key p w1 ∧
      (p.metadata.deletionTimestamp = false → partitionFinalizer ∈ p.metadata.finalizers → Fenced key w1))
      (get .partition .cache key) w := by
  refine Outline.call (fun _ _ _ => trivial) ?_ ?_
  · rintro r w1 w2 ⟨h1, hp⟩ hr
    refine ⟨hI w1 w2 h1 hr, fun p hrp => ?_⟩
    obtain ⟨hs, hseen, hf⟩ := hp p hrp
    exact ⟨hs.mono hr.stores, hr.seen p hseen, fun hd hm => hr.fenced (hf hd hm)⟩
  · intro ch w1 r w2 hr hi _ ha
    obtain ⟨hi', hr', hp'⟩ := getCached_served hi ch.skip key
    rcases Fate.answerWith_cases ha with ⟨rfl, rfl⟩ | ⟨err, rfl, -, hw'⟩
    · exact ⟨hi', trivial, hI _ _ (hI _ _ hw hr) (hr' key), hp'⟩
    rcases hw' with rfl | rfl
    · exact ⟨hi, trivial, hI _ _ hw hr, by rintro p ⟨⟩⟩
    · exact ⟨hi', trivial, hI _ _ (hI _ _ hw hr) (hr' key), by rintro p ⟨⟩⟩

end Distort.Lifecycle
