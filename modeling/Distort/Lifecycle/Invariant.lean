import Distort.Lifecycle.World

/-!
What holds of the partitions and the drives at every moment, and what each request does to it.

* `Inv` — the versions of a partition that the agent may still be shown carry no other identity than
  the derived one, and a version that has the cleanup finalizer and is not marked for deletion is
  followed by versions that have it;
* `Steady`, `Rely` — what is kept, for a pass, by everything that happens between its own requests;
* `neutral_safe` — most of a pass asks for nothing that could change any of this.
-/

namespace Distort.Lifecycle

open Go Lib Lib.Kube Api Agent Proc

variable {w w' : World} {key : Key}

/-! ### Versions -/

/-- What a later version has kept of an earlier one. -/
structure Later (p q : NVMePartition) : Prop where
  deleting : p.metadata.deletionTimestamp = true → q.metadata.deletionTimestamp = true
  recorded : p.status.backendVolumeID ≠ [] → q.status.backendVolumeID ≠ []

/-- There is a partition, and it has the cleanup finalizer. -/
def Carries (v : Option NVMePartition) : Prop := ∃ q, v = some q ∧ partitionFinalizer ∈ q.metadata.finalizers

/-- The order of two versions. -/
def Follows (v v' : Option NVMePartition) : Prop :=
  ∀ p, v = some p → (∀ q, v' = some q → Later p q) ∧
    (p.metadata.deletionTimestamp = false → partitionFinalizer ∈ p.metadata.finalizers → Carries v')

theorem Later.refl (p : NVMePartition) : Later p p := ⟨id, id⟩

theorem Later.trans {p q r : NVMePartition} (h : Later p q) (h' : Later q r) : Later p r :=
  ⟨h'.deleting ∘ h.deleting, h'.recorded ∘ h.recorded⟩

/-! ### What is kept -/

/-- **The stored partition exists and has the cleanup finalizer.** -/
def Fenced (key : Key) (w : World) : Prop := Carries (w.partitions key).cur

/-- Nothing older than `p` is shown any more. -/
def Seen (key : Key) (p : NVMePartition) (w : World) : Prop :=
  key ∈ w.created ∧ ∀ q, some q ∈ (w.partitions key).versions → Later p q

/-- The stores of the drives stay. -/
def StoresKept (w w' : World) : Prop :=
  ∀ bdev st, (w.media bdev).store = some st → ∃ st', (w'.media bdev).store = some st' ∧ st'.name = st.name

/-- No volume is added. -/
def NoneAdded (w w' : World) : Prop :=
  ∀ bdev st', (w'.media bdev).store = some st' → ∀ l ∈ st'.lvols, ∃ st, (w.media bdev).store = some st ∧ l ∈ st.lvols

/-- What a pass counts on while a volume may be created. -/
structure Steady (key : Key) (w w' : World) : Prop where
  fenced : Fenced key w → Fenced key w'
  seen : ∀ p, Seen key p w → Seen key p w'
  stores : StoresKept w w'

/-- What a pass counts on otherwise. -/
structure Rely (key : Key) (w w' : World) : Prop extends Steady key w w' where
  lvols : NoneAdded w w'

theorem StoresKept.refl (w : World) : StoresKept w w := fun _ st h => ⟨st, h, rfl⟩

theorem NoneAdded.refl (w : World) : NoneAdded w w := fun _ st h _ hl => ⟨st, h, hl⟩

theorem Steady.refl (key : Key) (w : World) : Steady key w w := ⟨id, fun _ => id, .refl w⟩

theorem Rely.refl (key : Key) (w : World) : Rely key w w := ⟨.refl key w, .refl w⟩

theorem StoresKept.trans {a b c : World} (h : StoresKept a b) (h' : StoresKept b c) : StoresKept a c := by
  intro bdev st hst
  obtain ⟨st1, h1, hn1⟩ := h bdev st hst
  obtain ⟨st2, h2, hn2⟩ := h' bdev st1 h1
  exact ⟨st2, h2, hn2.trans hn1⟩

theorem Steady.trans {a b c : World} (h : Steady key a b) (h' : Steady key b c) : Steady key a c :=
  ⟨h'.fenced ∘ h.fenced, fun p => h'.seen p ∘ h.seen p, h.stores.trans h'.stores⟩

theorem Rely.trans {a b c : World} (h : Rely key a b) (h' : Rely key b c) : Rely key a c := by
  refine ⟨h.toSteady.trans h'.toSteady, fun bdev st hst l hl => ?_⟩
  obtain ⟨st1, h1, hl1⟩ := h'.lvols bdev st hst l hl
  exact h.lvols bdev st1 h1 l hl1

theorem versions_store (w : World) (key key' : Key) (v : Option NVMePartition) :
    ((w.store key v).partitions key').versions =
      if key' = key then (w.partitions key).versions ++ [v] else (w.partitions key').versions := by
  by_cases hk : key' = key
  · subst hk
    simp [World.store]
  · simp [World.store, hk]

theorem cur_store (w : World) (key key' : Key) (v : Option NVMePartition) :
    ((w.store key v).partitions key').cur = if key' = key then v else (w.partitions key').cur := by
  by_cases hk : key' = key
  · subst hk
    simp [World.store]
  · simp [World.store, hk]

variable {q : NVMePartition} {v : Option NVMePartition}

theorem rely_store (hq : (w.partitions key).cur = some q)
    (hv : ∀ q', v = some q' → Later q q') (hk : partitionFinalizer ∈ q.metadata.finalizers → Carries v) (key' : Key) :
    Rely key' w (w.store key v) := by
  refine ⟨⟨fun hf => ?_, fun p hp => ⟨hp.1, fun q' hq' => ?_⟩, .refl w⟩, .refl w⟩
  · unfold Fenced at hf ⊢
    rw [cur_store]
    split
    · rename_i heq
      subst heq
      obtain ⟨q', hq', hmem⟩ := hf
      rw [hq] at hq'
      cases hq'
      exact hk hmem
    · exact hf
  · rw [versions_store] at hq'
    split at hq'
    · rename_i heq
      subst heq
      rcases List.mem_append.1 hq' with hold | hnew
      · exact hp.2 q' hold
      · have hpq : Later p q := hp.2 q (by rw [← hq]; exact Feed.cur_mem _)
        exact hpq.trans (hv q' (List.mem_singleton.1 hnew).symm)
    · exact hp.2 q' hq'

/-! ### The invariant -/

variable [StdLib] {s : Setting}

/-- The ID stands for the volume of the partition on its drive. -/
def Stands (s : Setting) (key : Key) (w : World) (id : Str) : Prop :=
  ∃ d ∈ s.hardware, s.isParent key d = true ∧ ∃ st, (w.media d.bdev).store = some st ∧
    id = SpdkLvol.lvolAlias st.name (s.externalID key)

/-- What is true of every version of a partition. -/
structure Sound (s : Setting) (key : Key) (w : World) (p : NVMePartition) : Prop where
  key_eq : p.key = key
  named : key.ns ≠ [] ∧ key.name ≠ []
  uid : p.metadata.uid = s.uid key
  externalID : p.status.externalID = [] ∨ p.status.externalID = s.externalID key
  nqn : p.status.nqn = [] ∨ p.status.nqn = Distort.VolumeIdentity.nqn (s.externalID key)
  /-- What is recorded of a volume is recorded with its ID. -/
  blank : p.status.backendVolumeID = [] → p.status.spdkLvolUUID = [] ∧ p.status.spdkLvstoreName = []
  stands : s.spdk = true → p.status.backendVolumeID ≠ [] → Stands s key w p.status.backendVolumeID
  fits : s.fits key p.spec = true

/-- No volume with the external ID of the partition is on its drive. -/
def Gone (s : Setting) (key : Key) (w : World) : Prop :=
  ∀ d ∈ s.hardware, s.isParent key d = true → ∀ st, (w.media d.bdev).store = some st →
    ∀ l ∈ st.lvols, l.name ≠ s.externalID key

structure Inv (s : Setting) (w : World) : Prop where
  sound : ∀ key p, some p ∈ (w.partitions key).versions → Sound s key w p
  order : ∀ key, (w.partitions key).versions.Pairwise Follows
  unused : ∀ key, key ∉ w.created → ∀ v ∈ (w.partitions key).versions, v = none
  clean : s.spdk = true → ∀ key present, .released key present ∈ w.log → present = false

theorem Stands.mono {id : Str} (h : Stands s key w id) (hs : StoresKept w w') : Stands s key w' id := by
  obtain ⟨d, hd, hp, st, hst, rfl⟩ := h
  obtain ⟨st', hst', hn⟩ := hs d.bdev st hst
  exact ⟨d, hd, hp, st', hst', by rw [hn]⟩

variable {p : NVMePartition}

theorem Sound.mono (h : Sound s key w p) (hs : StoresKept w w') : Sound s key w' p :=
  { h with stands := fun hspdk hne => (h.stands hspdk hne).mono hs }

theorem Gone.mono (h : Gone s key w) (hl : NoneAdded w w') : Gone s key w' := by
  intro d hd hp st' hst' l hl'
  obtain ⟨st, hst, hlst⟩ := hl d.bdev st' hst' l hl'
  exact h d hd hp st hst l hlst

theorem Gone.onMedia (h : Gone s key w) : w.onMedia s key = false := by
  simp only [World.onMedia, List.any_eq_false, Bool.and_eq_true, not_and, Option.any_eq_true, not_exists,
    List.any_eq_true, decide_eq_true_eq]
  intro d hd hp st hst l hl
  exact h d hd hp st hst l hl

/-! ### The objects -/

theorem Inv.follows_cur (h : Inv s w) (hv : v ∈ (w.partitions key).versions) :
    v = (w.partitions key).cur ∨ Follows v (w.partitions key).cur := by
  rcases Feed.mem_versions.1 hv with hold | rfl
  · refine .inr ?_
    exact (List.pairwise_append.1 (h.order key)).2.2 v hold _ (List.mem_singleton_self _)
  · exact .inl rfl

theorem Inv.created (h : Inv s w) (hp : some p ∈ (w.partitions key).versions) : key ∈ w.created := by
  by_contra hnot
  cases h.unused key hnot _ hp

theorem Inv.sound_cur (h : Inv s w) (hp : (w.partitions key).cur = some p) : Sound s key w p := by
  refine h.sound key p ?_
  rw [← hp]
  exact Feed.cur_mem _

/-- **A new version is stored**: the finalizer goes only where nothing else than marked versions can be
shown. -/
theorem Inv.store (h : Inv s w) (hq : (w.partitions key).cur = some q)
    (hv : ∀ q', v = some q' → Sound s key w q' ∧ Later q q')
    (hk : (partitionFinalizer ∈ q.metadata.finalizers → Carries v) ∨
      ∀ p, some p ∈ (w.partitions key).versions → p.metadata.deletionTimestamp = true) : Inv s (w.store key v) := by
  have hmem : some q ∈ (w.partitions key).versions := by
    rw [← hq]
    exact Feed.cur_mem _
  refine ⟨fun key' p hp => ?_, fun key' => ?_, fun key' hun u hu => ?_, h.clean⟩
  · rw [versions_store] at hp
    split at hp
    · rename_i heq
      subst heq
      rcases List.mem_append.1 hp with hold | hnew
      · exact (h.sound key' p hold).mono (.refl w)
      · exact (hv p (List.mem_singleton.1 hnew).symm).1.mono (.refl w)
    · exact (h.sound key' p hp).mono (.refl w)
  · rw [versions_store]
    split
    · rename_i heq
      subst heq
      refine List.pairwise_append.2 ⟨h.order key', List.pairwise_singleton _ _, fun u hu v' hv' => ?_⟩
      obtain rfl := List.mem_singleton.1 hv'
      rintro p rfl
      -- everything earlier is compared with the version that was stored so far
      have hpq : Later p q ∧ (p.metadata.deletionTimestamp = false → partitionFinalizer ∈ p.metadata.finalizers →
          partitionFinalizer ∈ q.metadata.finalizers) := by
        rcases h.follows_cur hu with hcur | hfol
        · rw [hq] at hcur
          cases hcur
          exact ⟨.refl _, fun _ hf => hf⟩
        · obtain ⟨hl, hc⟩ := hfol p rfl
          refine ⟨hl q hq, fun hd hf => ?_⟩
          obtain ⟨q', hq', hf'⟩ := hc hd hf
          rw [hq] at hq'
          cases hq'
          exact hf'
      refine ⟨fun q' hq' => hpq.1.trans (hv q' hq').2, fun hd hf => ?_⟩
      rcases hk with hkeep | hmarked
      · exact hkeep (hpq.2 hd hf)
      · rw [hmarked p hu] at hd
        cases hd
    · exact h.order key'
  · rw [versions_store] at hu
    split at hu
    · rename_i heq
      subst heq
      exact absurd (h.created hmem) hun
    · exact h.unused key' hun u hu

theorem getCached_served (h : Inv s w) (skip : ℕ) (key : Key) :
    Inv s (w.getCached skip key).2 ∧ (∀ key', Rely key' w (w.getCached skip key).2) ∧
      ∀ p, (w.getCached skip key).1 = .ok p → Sound s key (w.getCached skip key).2 p ∧
        Seen key p (w.getCached skip key).2 ∧
        (p.metadata.deletionTimestamp = false → partitionFinalizer ∈ p.metadata.finalizers →
          Fenced key (w.getCached skip key).2) := by
  have hshows := Feed.view_shows (w.partitions key) skip
  have hver : ∀ key', ((w.getCached skip key).2.partitions key').versions <:+ (w.partitions key').versions ∧
      ((w.getCached skip key).2.partitions key').cur = (w.partitions key').cur := by
    intro key'
    by_cases hk : key' = key
    · subst hk
      simp only [World.getCached, Function.update_self]
      exact ⟨hshows.suffix, hshows.cur_eq⟩
    · simp only [World.getCached, Function.update_of_ne hk]
      exact ⟨List.suffix_refl _, trivial⟩
  have hinv : Inv s (w.getCached skip key).2 := by
    refine ⟨fun key' p hp => ?_, fun key' => ?_, fun key' hun v hv => ?_, h.clean⟩
    · exact (h.sound key' p ((hver key').1.subset hp)).mono (.refl w)
    · exact (h.order key').sublist (hver key').1.sublist
    · exact h.unused key' hun v ((hver key').1.subset hv)
  refine ⟨hinv, fun key' => ⟨⟨fun hf => ?_, fun p hp => ?_, .refl w⟩, .refl w⟩, fun p hp => ?_⟩
  · unfold Fenced
    rw [(hver key').2]
    exact hf
  · exact ⟨hp.1, fun q hq => hp.2 q ((hver key').1.subset hq)⟩
  · -- what is shown is the first version left, and everything later follows it
    have hshown : ((w.partitions key).view skip).1 = some p := found_eq_ok hp
    obtain ⟨l, hl⟩ : ∃ l, ((w.getCached skip key).2.partitions key).versions = some p :: l := by
      obtain ⟨l, hl⟩ := hshows.versions_eq
      exact ⟨l, by simp only [World.getCached, Function.update_self, hl, hshown]⟩
    have hmem : some p ∈ ((w.getCached skip key).2.partitions key).versions := by
      rw [hl]
      exact List.mem_cons_self
    have horder := hinv.order key
    rw [hl, List.pairwise_cons] at horder
    refine ⟨hinv.sound key p hmem, ⟨hinv.created hmem, fun q hq => ?_⟩, fun hd hf => ?_⟩
    · rw [hl] at hq
      rcases List.mem_cons.1 hq with heq | hq
      · cases heq
        exact .refl _
      · exact (horder.1 _ hq p rfl).1 q rfl
    · rcases hinv.follows_cur hmem with heq | hfol
      · exact ⟨p, heq.symm, hf⟩
      · exact (hfol p rfl).2 hd hf

/-! ### Writes of the agent -/

/-- What an update of the status may do: the identity is the derived one, and a volume is recorded with
its ID. -/
structure Writes (s : Setting) (key : Key) (w : World) (f : NVMePartitionStatus → NVMePartitionStatus) : Prop where
  externalID : ∀ st, (f st).externalID = st.externalID ∨ (f st).externalID = s.externalID key
  nqn : ∀ st, (f st).nqn = st.nqn ∨ (f st).nqn = Distort.VolumeIdentity.nqn (s.externalID key)
  volume : (∀ st, (f st).backendVolumeID = st.backendVolumeID ∧ (f st).spdkLvolUUID = st.spdkLvolUUID ∧
      (f st).spdkLvstoreName = st.spdkLvstoreName) ∨
    ∀ st, (f st).backendVolumeID ≠ [] ∧ (s.spdk = true → Stands s key w (f st).backendVolumeID)

variable {f : NVMePartitionStatus → NVMePartitionStatus}

theorem Sound.merge {latest q : NVMePartition}
    (hl : Sound s key w latest) (hq : Sound s key w q) (hlq : Later latest q) (hf : Writes s key w f) :
    Sound s key w { q with status := .merge latest.status (f latest.status) q.status } ∧
      Later q { q with status := .merge latest.status (f latest.status) q.status } := by
  -- either nothing is said about the volume, or its ID is there afterwards
  have hvol : ((NVMePartitionStatus.merge latest.status (f latest.status) q.status).backendVolumeID =
        q.status.backendVolumeID ∧
      (NVMePartitionStatus.merge latest.status (f latest.status) q.status).spdkLvolUUID = q.status.spdkLvolUUID ∧
      (NVMePartitionStatus.merge latest.status (f latest.status) q.status).spdkLvstoreName =
        q.status.spdkLvstoreName) ∨
      (NVMePartitionStatus.merge latest.status (f latest.status) q.status).backendVolumeID ≠ [] ∧
        (s.spdk = true → Stands s key w
          (NVMePartitionStatus.merge latest.status (f latest.status) q.status).backendVolumeID) := by
    rcases hf.volume with hsame | hnew
    · obtain ⟨hb, hu, hn⟩ := hsame latest.status
      simp [NVMePartitionStatus.merge, hb, hu, hn]
    obtain ⟨hne, hst⟩ := hnew latest.status
    refine .inr ?_
    simp only [NVMePartitionStatus.merge, mergeField]
    split
    · rename_i heq
      have hrec : q.status.backendVolumeID ≠ [] := hlq.recorded (heq ▸ hne)
      exact ⟨hrec, fun hspdk => hq.stands hspdk hrec⟩
    · exact ⟨hne, hst⟩
  refine ⟨{ hq with externalID := ?_, nqn := ?_, blank := fun hb => ?_, stands := fun hspdk hne => ?_ }, id, fun hne => ?_⟩
  · rcases mergeField_cases latest.status.externalID (f latest.status).externalID q.status.externalID with h | h
    · exact (congrArg (· = []) h ▸ congrArg (· = s.externalID key) h ▸ hq.externalID)
    rcases hf.externalID latest.status with h' | h'
    · exact hl.externalID.imp (fun he => h.trans (h'.trans he)) fun he => h.trans (h'.trans he)
    · exact .inr (h.trans h')
  · rcases mergeField_cases latest.status.nqn (f latest.status).nqn q.status.nqn with h | h
    · exact hq.nqn.imp (fun he => h.trans he) fun he => h.trans he
    rcases hf.nqn latest.status with h' | h'
    · exact hl.nqn.imp (fun he => h.trans (h'.trans he)) fun he => h.trans (h'.trans he)
    · exact .inr (h.trans h')
  · rcases hvol with ⟨hid, hu, hn⟩ | ⟨hne, -⟩
    · obtain ⟨hu', hn'⟩ := hq.blank (hid.symm.trans hb)
      exact ⟨hu.trans hu', hn.trans hn'⟩
    · exact absurd hb hne
  · rcases hvol with ⟨hid, -, -⟩ | ⟨-, hst⟩
    · have : Stands s key w q.status.backendVolumeID := hq.stands hspdk fun he => hne (hid.trans he)
      exact hid ▸ this
    · exact hst hspdk
  · rcases hvol with ⟨hid, -, -⟩ | ⟨hne', -⟩
    · exact fun he => hne (hid.symm.trans he)
    · exact hne'

theorem patchStatus_served (h : Inv s w) {latest : NVMePartition}
    (hl : Sound s key w latest) (hseen : Seen key latest w) (hf : Writes s key w f) :
    Inv s (w.patchStatus latest { latest with status := f latest.status }).2 ∧
      ∀ key', Rely key' w (w.patchStatus latest { latest with status := f latest.status }).2 := by
  have hkey : Object.key { latest with status := f latest.status } = key := hl.key_eq
  unfold World.patchStatus
  rw [hkey]
  cases hq : (w.partitions key).cur with
  | none => exact ⟨h, fun key' => .refl key' w⟩
  | some q =>
    have hlq : Later latest q := hseen.2 q (by rw [← hq]; exact Feed.cur_mem _)
    have hsound := hl.merge (h.sound_cur hq) hlq hf
    have hkeep : partitionFinalizer ∈ q.metadata.finalizers →
        Carries (some { q with status := .merge latest.status (f latest.status) q.status }) :=
      fun hm => ⟨_, rfl, hm⟩
    refine ⟨h.store hq ?_ (.inl hkeep), rely_store hq ?_ hkeep⟩
    · rintro q' ⟨⟩
      exact hsound
    · rintro q' ⟨⟩
      exact hsound.2

theorem Sound.setFinalizers (h : Sound s key w q) (fs : List Str) :
    Sound s key w (q.setFinalizers fs) ∧ Later q (q.setFinalizers fs) :=
  ⟨{ h with }, id, id⟩

/-- A patch is refused, or it replaces the finalizers; only the loss of the cleanup finalizer is noted. -/
theorem patch_cases (base obj : NVMePartition) (hq : (w.partitions obj.key).cur = some q) :
    w.patch s base obj = (.error forbidden, w) ∨
      w.patch s base obj = (.ok (Object.patchFinalizers base obj q),
        w.store obj.key (Object.patchFinalizers base obj q).settle) ∨
      (Object.patchFinalizers base obj q).containsFinalizer partitionFinalizer = false ∧
        w.patch s base obj = (.ok (Object.patchFinalizers base obj q),
          (w.store obj.key (Object.patchFinalizers base obj q).settle).note
            (.released obj.key (w.onMedia s obj.key))) := by
  unfold World.patch
  rw [hq]
  simp only
  split
  · exact .inl rfl
  split
  · rename_i hlost
    refine .inr (.inr ⟨?_, rfl⟩)
    simpa using (Bool.and_eq_true_iff.1 hlost).2
  · exact .inr (.inl rfl)

/-- **The cleanup finalizer is added**; a success means that the stored partition has it. -/
theorem addFinalizer_served (h : Inv s w) (hp : p.key = key) (hnot : partitionFinalizer ∉ p.metadata.finalizers) :
    Inv s (w.patch s p (p.addFinalizer partitionFinalizer)).2 ∧
      (∀ key', Rely key' w (w.patch s p (p.addFinalizer partitionFinalizer)).2) ∧
      ∀ q, (w.patch s p (p.addFinalizer partitionFinalizer)).1 = .ok q →
        Sound s key (w.patch s p (p.addFinalizer partitionFinalizer)).2 q ∧
        Fenced key (w.patch s p (p.addFinalizer partitionFinalizer)).2 := by
  have hadd : p.addFinalizer partitionFinalizer = p.setFinalizers (p.metadata.finalizers ++ [partitionFinalizer]) := by
    simp [Object.addFinalizer, Object.containsFinalizer, hnot]
  have hkey : (p.addFinalizer partitionFinalizer).key = key := by
    rw [hadd]
    exact hp
  cases hq : (w.partitions key).cur with
  | none =>
    have hnone : w.patch s p (p.addFinalizer partitionFinalizer) = (.error notFound, w) := by
      simp only [World.patch, hkey, hq]
    rw [hnone]
    exact ⟨h, fun key' => .refl key' w, by rintro q ⟨⟩⟩
  | some q =>
    have hfs : Object.patchFinalizers p (p.addFinalizer partitionFinalizer) q =
        q.setFinalizers (p.metadata.finalizers ++ [partitionFinalizer]) := by
      rw [hadd]
      simp [Object.patchFinalizers, Object.setFinalizers, mergeField]
    have hmem : partitionFinalizer ∈
        (Object.patchFinalizers p (p.addFinalizer partitionFinalizer) q).metadata.finalizers := by
      rw [hfs]
      exact List.mem_append_right _ (List.mem_singleton_self _)
    rcases patch_cases (s := s) p (p.addFinalizer partitionFinalizer) (hkey ▸ hq) with heq | heq | ⟨hlost, -⟩
    · rw [heq]
      exact ⟨h, fun key' => .refl key' w, by rintro q ⟨⟩⟩
    · rw [heq, settle_of_mem hmem, hkey]
      rw [hfs] at hmem ⊢
      obtain ⟨hsound, hlater⟩ := (h.sound_cur hq).setFinalizers (p.metadata.finalizers ++ [partitionFinalizer])
      have hcarries : Carries (some (q.setFinalizers (p.metadata.finalizers ++ [partitionFinalizer]))) := ⟨_, rfl, hmem⟩
      refine ⟨h.store hq ?_ (.inl fun _ => hcarries), rely_store hq ?_ fun _ => hcarries, ?_⟩
      · rintro q' ⟨⟩
        exact ⟨hsound, hlater⟩
      · rintro q' ⟨⟩
        exact hlater
      · rintro q' ⟨⟩
        refine ⟨hsound.mono (.refl w), ?_⟩
        unfold Fenced
        rw [cur_store, if_pos rfl]
        exact hcarries
    · rw [containsFinalizer_iff.2 hmem] at hlost
      cases hlost

/-- **The cleanup finalizer is taken off** a partition that is only shown as marked for deletion by now,
and whose volume is gone. -/
theorem removeFinalizer_served (h : Inv s w) (hp : p.key = key)
    (hmarked : ∀ q, some q ∈ (w.partitions key).versions → q.metadata.deletionTimestamp = true)
    (hgone : s.spdk = true → Gone s key w) : Inv s (w.patch s p (p.removeFinalizer partitionFinalizer)).2 := by
  have hkey : (p.removeFinalizer partitionFinalizer).key = key := hp
  cases hq : (w.partitions key).cur with
  | none =>
    have hnone : w.patch s p (p.removeFinalizer partitionFinalizer) = (.error notFound, w) := by
      simp only [World.patch, hkey, hq]
    rw [hnone]
    exact h
  | some q =>
    obtain ⟨hsound, hlater⟩ := (h.sound_cur hq).setFinalizers (mergeField p.metadata.finalizers
      (p.removeFinalizer partitionFinalizer).metadata.finalizers q.metadata.finalizers)
    have hstored : Inv s (w.store key
        (Object.patchFinalizers p (p.removeFinalizer partitionFinalizer) q).settle) := by
      refine h.store hq (fun q' hq' => ?_) (.inr hmarked)
      rw [settle_eq_some hq']
      exact ⟨hsound, hlater⟩
    rcases patch_cases (s := s) p (p.removeFinalizer partitionFinalizer) (hkey ▸ hq) with heq | heq | ⟨-, heq⟩
    · rw [heq]
      exact h
    · rw [heq, hkey]
      exact hstored
    rw [heq, hkey]
    refine ⟨fun key' q' hq' => (hstored.sound key' q' hq').mono (.refl _), hstored.order, hstored.unused,
      fun hspdk key' present hmem => ?_⟩
    rcases List.mem_cons.1 hmem with hnew | hold
    · cases hnew
      exact (hgone hspdk).onMedia
    · exact h.clean hspdk key' present hold

end Distort.Lifecycle
