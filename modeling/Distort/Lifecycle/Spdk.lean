import Distort.Lifecycle.Pass
import Distort.Volumes.Lvol

/-!
The plugins of SPDK keep the rules, request by request.

* `spdk_rules` — a volume that is created stands on the drive that was asked for, and a volume that
  is reported as deleted is not on the drive, provided that the target has the drive whenever the
  bdevs are listed.
-/

namespace Distort.Lifecycle

open Go Lib Lib.Kube Api Agent Proc

variable [StdLib] {s : Setting} {w w' : World} {key : Key}

/-! ### The target backend -/

section

omit [StdLib]

end

theorem exportVolume_ends (volumeName blockPath portalIP : Str) (portalPort : ℤ) (options : Options) :
    (Spdk.exportVolume volumeName blockPath portalIP portalPort options).Ends fun r =>
      ∀ nqn, r = .ok nqn → nqn = Distort.VolumeIdentity.nqn volumeName := by
  have hcreate : (Spdk.createExport (Distort.VolumeIdentity.nqn volumeName) blockPath portalIP portalPort).Ends fun r =>
      ∀ nqn, r = .ok nqn → nqn = Distort.VolumeIdentity.nqn volumeName := by
    have habandon : ∀ err, (Spdk.abandon (Distort.VolumeIdentity.nqn volumeName) err).Ends fun r =>
        ∀ nqn, r = .ok nqn → nqn = Distort.VolumeIdentity.nqn volumeName :=
      fun err => Prog.Ends.bind fun _ => by rintro nqn ⟨⟩
    refine Prog.Ends.check (fun err => by rintro nqn ⟨⟩) fun _ => ?_
    refine Prog.Ends.check (fun err => by rintro nqn ⟨⟩) fun _ => ?_
    refine Prog.Ends.check (fun err => habandon _) fun _ => Prog.Ends.check (fun err => habandon _) fun _ => ?_
    rintro nqn ⟨⟩
    rfl
  refine Prog.Ends.bind fun inspection => ?_
  cases inspection.state with
  | healthy =>
    rintro nqn ⟨⟩
    rfl
  | observationUnavailable => rintro nqn ⟨⟩
  | mismatch => exact Prog.Ends.check (fun err => by rintro nqn ⟨⟩) fun _ => hcreate
  | missing => exact hcreate

section resolve

omit [StdLib]

open SpdkLvol

variable {bdevs : List Bdev} {identity : VolumeIdentity}

/-- **If nothing is found, the volume is not listed under the recorded ID**, nor at all if none is
recorded. -/
theorem not_listed_of_resolve {volumeName store : Str}
    (h : resolveLvolForDeletion bdevs volumeName identity = .ok none) (hname : volumeName ≠ [])
    (hblank : identity.backendVolumeID = [] → identity.volumeUUID = [] ∧ identity.volumeStoreName = [])
    {b : Bdev} (hb : b ∈ bdevs) (hlisted : lvolAlias store volumeName ∈ b.aliases) :
    identity.backendVolumeID ≠ [] ∧ identity.backendVolumeID ≠ lvolAlias store volumeName := by
  have hnone : ∀ p ∈ Volumes.Lvol.wanted volumeName identity, ∀ b ∈ bdevs, p b = false := by
    rcases Volumes.Lvol.resolve_ok h with ⟨-, hnone⟩ | ⟨b, i, hb, -⟩
    · exact hnone
    · cases hb
  by_cases hid : identity.backendVolumeID = []
  · -- only the name is left to look for
    exfalso
    obtain ⟨huuid, hstore⟩ := hblank hid
    have hwanted : Volumes.Lvol.wanted volumeName identity =
        [fun b => b.name = volumeName || b.aliases.any fun a => a = volumeName || hasSuffix a (str "/" ++ volumeName)] := by
      simp [Volumes.Lvol.wanted, Volumes.Lvol.recorded, huuid, hid, hstore, hname]
    have hnot := hnone _ (hwanted ▸ List.mem_singleton_self _) b hb
    simp only [Bool.or_eq_false_iff, List.any_eq_false, Bool.or_eq_true, not_or, decide_eq_true_eq] at hnot
    refine (hnot.2 _ hlisted).2 ?_
    simp only [hasSuffix, List.isSuffixOf_iff_suffix, lvolAlias]
    exact ⟨store, by simp⟩
  · refine ⟨hid, fun heq => ?_⟩
    have hwanted : (fun b => named b identity.backendVolumeID) ∈ Volumes.Lvol.wanted volumeName identity :=
      Volumes.Lvol.mem_wanted (by simp [Volumes.Lvol.recorded, hid])
    have hnot := hnone _ hwanted b hb
    simp only [named, Bool.or_eq_false_iff] at hnot
    rw [heq] at hnot
    simp [hlisted] at hnot

end resolve

/-! ### The volume manager -/

variable {deviceName : Str}

theorem stands_of_listed {stores : List Lvstore} {store : Lvstore} (hspdk : s.spdk = true)
    (hpoints : Points s key deviceName) (hstores : stores = (w.stores s).map fun x => ⟨x.2.uuid, x.2.name, x.1.bdev⟩)
    (hfound : SpdkLvol.lvstoreForBaseBdev stores deviceName = .ok store) :
    Stands s key w (SpdkLvol.lvolAlias store.name (s.externalID key)) := by
  have hmem := Volumes.Lvol.lvstoreForBaseBdev_mem hfound
  rw [hstores] at hmem
  obtain ⟨⟨d, st⟩, hx, rfl⟩ := List.mem_map.1 hmem.1
  obtain ⟨hd, -, hst⟩ := mem_stores.1 hx
  exact ⟨d, hd, hpoints hspdk d hd hmem.2, st, hst, rfl⟩

variable {I : World → Prop}

/-- The stores are listed, and what is carved out of the one that is found will stand. -/
def StoresListed (s : Setting) (key : Key) (I : World → Prop) (deviceName : Str) (r : Except Err (List Lvstore))
    (w : World) : Prop :=
  I w ∧ ∀ stores store, r = .ok stores → SpdkLvol.lvstoreForBaseBdev stores deviceName = .ok store → s.spdk = true →
    Stands s key w (SpdkLvol.lvolAlias store.name (s.externalID key))

theorem listSPDKLvstores_safe (hI : Stable key I) (hpoints : Points s key deviceName) (hw : I w) :
    (outline s).Safe key (StoresListed s key I deviceName) SpdkLvol.listSPDKLvstores w := by
  have hstable : ∀ r w1 w2, StoresListed s key I deviceName r w1 → Rely key w1 w2 → StoresListed s key I deviceName r w2 :=
    fun r w1 w2 h hr => ⟨hI.rely w1 w2 h.1 hr, fun stores store hs hf hspdk => (h.2 stores store hs hf hspdk).mono hr.stores⟩
  refine .andThen (Outline.call (fun _ _ _ => trivial) hstable ?_) (fun _ _ h1 => .stay ⟨h1.1, nofun⟩ (hstable _))
    fun _ _ h1 => .stay h1 (hstable _)
  intro ch w1 r w2 hr hi _ ha
  obtain rfl : w2 = w1 := (Fate.answerWith_state ha).elim id id
  refine ⟨hi, trivial, hI.rely w _ hw hr, ?_⟩
  rintro stores store rfl hf hspdk
  have heq := (Prod.mk.inj (Fate.answerWith_ok ha)).1
  exact stands_of_listed hspdk hpoints (Except.ok.inj heq).symm hf

variable {identity : VolumeIdentity}

omit [StdLib] in
theorem createNew_ends (store : Lvstore) (volumeName : Str) (allocatedBytes : ℤ) :
    (SpdkLvol.createNew store volumeName allocatedBytes).Ends fun r =>
      ∀ created, r = .ok created → created.backendVolumeID = SpdkLvol.lvolAlias store.name volumeName := by
  refine Prog.Ends.check (fun err => by rintro created ⟨⟩) fun uuid => ?_
  refine Prog.Ends.check (fun err => by rintro created ⟨⟩) fun bdevs => ?_
  split
  · rintro created ⟨⟩
  split
  · rintro created ⟨⟩
  rename_i identity hid
  obtain ⟨-, rfl⟩ := Volumes.Lvol.identityOf_ok hid
  rintro created ⟨⟩
  split <;> rfl

theorem createNew_safe (hI : Stable key I) (hw : I w) (store : Lvstore) (volumeName : Str) (allocatedBytes : ℤ) :
    (outline s).Safe key (fun _ => I) (SpdkLvol.createNew store volumeName allocatedBytes) w := by
  refine .andThen (Outline.call (Q := fun _ => I) (fun _ _ _ => trivial) (fun _ => hI.rely) ?_)
    (fun _ _ h1 => .keep h1 hI.rely) fun uuid w1 h1 => ?_
  · intro ch w1 r w2 hr hi _ ha
    have haside := createLvol_aside (w := w1) (s := s) ch.uuid store.name volumeName
      (allocatedBytes.tdiv SpdkLvol.mebibyteBytes)
    rcases Fate.answerWith_state ha with rfl | rfl
    · exact ⟨hi, trivial, hI.rely w _ hw hr⟩
    · exact ⟨hi.aside haside, trivial, hI _ _ (hI.rely w w1 hw hr) (haside.steady key)⟩
  · refine .andThen (neutral_safe (SpdkLvol.listSPDKBdevs_only rfl) h1 hI.rely) (fun _ _ h2 => .keep h2 hI.rely)
      fun bdevs w2 h2 => ?_
    split
    · exact .keep h2 hI.rely
    · split <;> exact .keep h2 hI.rely

/-- **A volume that was created** stands on the drive of the partition. -/
theorem createVolume_safe (hI : Stable key I) (hpoints : Points s key deviceName)
    (hw : I w) (devicePath : Str) (sizeBytes : ℤ) : (outline s).Safe key (Carved s key I)
      (SpdkLvol.createVolume devicePath deviceName (s.externalID key) sizeBytes) w := by
  have hfail : ∀ (err : Err) w1, I w1 → (outline s).Safe key (Carved s key I) (fail err) w1 :=
    fun err w1 h1 => Terms.Safe.ret fun w2 hr _ => ⟨hI.rely w1 w2 h1 hr, nofun⟩
  unfold SpdkLvol.createVolume
  split
  · exact hfail _ w hw
  refine .andThen (listSPDKLvstores_safe hI hpoints hw) (fun err w1 h1 => hfail err w1 h1.1) fun stores w1 h1 => ?_
  simp only
  split
  · exact hfail _ w1 h1.1
  rename_i store hstore
  -- from here on the store is known, and so is what the result stands for
  have hJ : Stable key fun w2 => I w2 ∧
      (s.spdk = true → Stands s key w2 (SpdkLvol.lvolAlias store.name (s.externalID key))) :=
    fun w2 w3 h hs => ⟨hI w2 w3 h.1 hs, fun hspdk => (h.2 hspdk).mono hs.stores⟩
  refine .andThen (neutral_safe (SpdkLvol.listSPDKBdevs_only rfl) ⟨h1.1, h1.2 stores store rfl hstore⟩ hJ.rely)
    (fun _ w2 h2 => hfail _ w2 h2.1) fun bdevs w2 h2 => ?_
  split
  · refine .ret fun w3 hr _ => ⟨hI.rely w2 w3 h2.1 hr, fun created hc hspdk => ?_⟩
    rw [(Volumes.Lvol.identityOf_ok hc).2]
    exact (h2.2 hspdk).mono hr.stores
  · split
    · exact hfail _ w2 h2.1
    refine ((createNew_safe hJ h2 store _ _).ends (createNew_ends store _ _)).conseq fun r w3 _ h3 => ?_
    refine ⟨h3.1.1, fun created hc hspdk => ?_⟩
    rw [h3.2 created hc]
    exact h3.1.2 hspdk

/-! ### Deletion -/

/-- **Where the target has the drive, what is not listed is not there.** -/
theorem gone_of_resolve (hspdk : s.spdk = true) (hrec : Recorded s key identity w)
    (hmarked : Marked key w) (hguard : attachedWhenListing s key (.rpc (.bdevGetBdevs none)) w = true)
    (hres : SpdkLvol.resolveLvolForDeletion (w.bdevs s) (s.externalID key) identity = .ok none) : Gone s key w := by
  intro d hd hparent st hst l hl hname
  obtain ⟨-, -, -, hne⟩ := exists_identity s hrec.named
  have hattached : (w.media d.bdev).attached = true := by
    have hnot : ((w.partitions key).cur.any fun p => !p.metadata.deletionTimestamp) = false := by
      cases hcur : (w.partitions key).cur with
      | none => rfl
      | some q =>
        have := hmarked q (by rw [← hcur]; exact Feed.cur_mem _)
        simp [this]
    simp only [attachedWhenListing, hspdk, hnot, Bool.not_true, Bool.false_or, List.all_eq_true, Bool.or_eq_true,
      Bool.not_eq_true'] at hguard
    rcases hguard d hd with hno | hyes
    · rw [hparent] at hno
      cases hno
    · exact hyes
  have hmem : World.lvolBdev st l ∈ w.bdevs s := by
    refine List.mem_append_right _ (List.mem_flatMap.2 ⟨(d, st), mem_stores.2 ⟨hd, hattached, hst⟩, ?_⟩)
    exact List.mem_map_of_mem hl
  have hlisted : SpdkLvol.lvolAlias st.name (s.externalID key) ∈ (World.lvolBdev st l).aliases := by
    rw [← hname]
    exact List.mem_singleton_self _
  obtain ⟨hid, hother⟩ := not_listed_of_resolve hres hne hrec.blank hmem hlisted
  -- the recorded ID stands for a volume on the same drive
  obtain ⟨d', hd', hparent', st', hst', heq⟩ := hrec.stands hspdk hid
  have hsame : d = d' := by
    refine s.distinct d hd d' hd' ?_
    simp only [Setting.isParent, equalFold, beq_iff_eq] at hparent hparent' ⊢
    rw [hparent, hparent']
  subst hsame
  rw [hst] at hst'
  cases hst'
  exact hother heq

/-- The bdevs are listed, and what is not found is gone. -/
def BdevsListed (s : Setting) (key : Key) (I : World → Prop) (identity : VolumeIdentity) (r : Except Err (List Bdev))
    (w : World) : Prop :=
  I w ∧ ∀ bdevs, r = .ok bdevs → SpdkLvol.resolveLvolForDeletion bdevs (s.externalID key) identity = .ok none →
    s.spdk = true → Gone s key w

theorem listSPDKBdevs_safe (hI : Stable key I)
    (hknown : ∀ w1, I w1 → Marked key w1 ∧ Recorded s key identity w1) (hw : I w) :
    (outline s).Safe key (BdevsListed s key I identity) SpdkLvol.listSPDKBdevs w := by
  have hstable : ∀ r w1 w2, BdevsListed s key I identity r w1 → Rely key w1 w2 → BdevsListed s key I identity r w2 :=
    fun r w1 w2 h hr => ⟨hI.rely w1 w2 h.1 hr, fun bdevs hb hres hspdk => (h.2 bdevs hb hres hspdk).mono hr.lvols⟩
  refine .andThen (Outline.call (fun _ _ _ => trivial) hstable ?_) (fun _ _ h1 => .stay ⟨h1.1, nofun⟩ (hstable _))
    fun _ _ h1 => .stay h1 (hstable _)
  intro ch w1 r w2 hr hi hguard ha
  obtain rfl : w2 = w1 := (Fate.answerWith_state ha).elim id id
  have h1 := hI.rely w _ hw hr
  refine ⟨hi, trivial, h1, ?_⟩
  rintro bdevs rfl hres hspdk
  obtain rfl : w2.bdevs s = bdevs := Except.ok.inj (Prod.mk.inj (Fate.answerWith_ok ha)).1
  exact gone_of_resolve hspdk (hknown _ h1).2 (hknown _ h1).1 hguard hres

/-- **A volume that was reported as deleted** is not on the drive any more. -/
theorem deleteVolume_safe (hI : Stable key I)
    (hknown : ∀ w1, I w1 → Marked key w1 ∧ Recorded s key identity w1) (hw : I w) (devicePath deviceName : Str) :
    (outline s).Safe key (Deleted s key I)
      (SpdkLvol.deleteVolume devicePath deviceName (s.externalID key) identity) w := by
  have hfail : ∀ (err : Err) w1, I w1 → (outline s).Safe key (Deleted s key I) (fail err) w1 :=
    fun err w1 h1 => Terms.Safe.ret fun w2 hr _ => ⟨hI.rely w1 w2 h1 hr, nofun⟩
  have hdone : ∀ w1, I w1 → (s.spdk = true → Gone s key w1) → (outline s).Safe key (Deleted s key I) (done ()) w1 :=
    fun w1 h1 hg => Terms.Safe.ret fun w2 hr _ => ⟨hI.rely w1 w2 h1 hr, fun _ hspdk => (hg hspdk).mono hr.lvols⟩
  refine .andThen (neutral_safe (SpdkLvol.listSPDKLvstores_only rfl) hw hI.rely) (fun err w1 h1 => hfail err w1 h1)
    fun stores w1 h1 => ?_
  refine .andThen (listSPDKBdevs_safe hI hknown h1) (fun _ w2 h2 => hfail _ w2 h2.1) fun bdevs w2 h2 => ?_
  split
  · exact hfail _ w2 h2.1
  · rename_i hres
    exact hdone w2 h2.1 (h2.2 bdevs rfl hres)
  split
  · exact hfail _ w2 h2.1
  -- the volume was found: after its removal the bdevs are listed again
  refine .bind ((neutral_safe (only_op rfl) h2.1 hI.rely).conseq fun deleted w3 _ h3 => ?_)
  refine .andThen (listSPDKBdevs_safe hI hknown h3) (fun _ w4 h4 => hfail _ w4 h4.1) fun bdevs' w4 h4 => ?_
  split
  · exact hfail _ w4 h4.1
  · rename_i hres
    exact hdone w4 h4.1 (h4.2 bdevs' rfl hres)
  · cases deleted <;> exact hfail _ w4 h4.1

/-- The plugins of SPDK. -/
def spdkPlugins : Plugins := ⟨[Spdk.backend], [SpdkLvol.manager]⟩

end Distort.Lifecycle
