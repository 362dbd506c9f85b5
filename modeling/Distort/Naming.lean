import Distort.Agent.BackendKernel
import Distort.Creation
import Distort.Csi.Node
import Distort.Lifecycle.Spdk

/-!
One name for a target: what the agent exports and records, what `CreateVolume` hands out, what a deletion unexports and
what a node disconnects from.

The system is that of the volumes of one name, with `CreateVolume`, `DeleteVolume` and passes of the agent side by
side.  Only the agent writes the identity of a partition or says that it is exported.

* `one_target` — all of them are the target of the partition with this UID, and another partition has another one,
  as long as the agent writes to a partition only if it is the one that its pass was shown, and `CreateVolume` is not
  shown two partitions;
* `two_targets` — a pass records the target of a partition that is gone at its successor, and a call hands out
  a successor that is not exported.
-/

namespace Distort.Naming

open Go Lib Lib.Kube Api Agent Csi Proc
open Creation (World Setting Job Choice)

/-! ### The system -/

/-- What a backend answers when it has exported a volume. -/
def exportedUnder : (c : Call) → c.Resp → Bool
  | .plugin (.exportVolume volumeName _ _ _ _), r => r.toOption.all fun nqn => nqn = VolumeIdentity.nqn volumeName
  | _, _ => true

/-- Others leave the identity alone, and do not say that a partition is exported. -/
def leaves (ch : Choice) (w : World) : Bool :=
  match ch.change, w.partition.cur with
  | .write obj, some q => obj.status.externalID = q.status.externalID && obj.status.nqn = q.status.nqn &&
      (obj.status.state ≠ .exported || q.status.state = .exported)
  | _, _ => true

def answer (s : Setting) (ch : Choice) (j : Job) (c : Call) (w : World) : Option (c.Resp × World) :=
  (Creation.answer s ch j c w).filter fun a => exportedUnder c a.1

/-- **The system of the volumes of one name.** -/
def machine [StdLib] (s : Setting) : Machine Call Call.Resp World Job Choice Creation.Result :=
  { Creation.machine s with answer := answer s }.limited leaves

/-- A call reads the partition that it has read before, and the agent writes to the status of a partition only if it is
what the pass was shown. -/
def steady (j : Job) (c : Call) (w : World) : Bool :=
  match j, c with
  | .create n _ _, .api (.get .partition _ _) =>
    match w.lastRead n, w.partition.cur with
    | some p, some q => p.metadata.uid = q.metadata.uid
    | _, _ => true
  | .pass n, .api (.patchStatus .partition _ _) =>
    w.partition.cur.all fun q => (w.shown n).all fun u => u = q.metadata.uid
  | _, _ => true

/-! ### Invariant -/

/-- The partition of this UID, if it is stored, has a target. -/
def Served (uid : Str) (w : World) : Prop :=
  ∀ q, w.partition.cur = some q → q.metadata.uid = uid → q.status.nqn ≠ []

/-- What is recorded is the identity, or nothing yet. -/
structure Own (i : VolumeIdentity.Identity) (status : NVMePartitionStatus) : Prop where
  externalID : status.externalID = [] ∨ status.externalID = i.externalID
  volumeID : status.volumeID = [] ∨ status.volumeID = i.volumeHandle
  nqn : status.nqn = [] ∨ status.nqn = VolumeIdentity.nqn i.externalID

/-- The identity of the partition with the UID. -/
def Identifies (s : Setting) (uid : Str) (i : VolumeIdentity.Identity) : Prop :=
  VolumeIdentity.new s.key.ns s.key.name uid = .ok i

/-- What is true of a version by itself. -/
structure Sound (s : Setting) (p : NVMePartition) : Prop where
  key : p.key = s.key
  own : ∀ i, Identifies s p.metadata.uid i → Own i p.status
  exported : p.status.state = .exported → p.status.nqn ≠ []

/-- What is true of every version of a partition. -/
structure Genuine (s : Setting) (w : World) (p : NVMePartition) : Prop extends Sound s p where
  born : p.metadata.uid ∈ w.born.map Prod.fst
  served : p.status.nqn ≠ [] → Served p.metadata.uid w

def Inv (s : Setting) (w : World) : Prop := ∀ p, some p ∈ w.partition.versions → Genuine s w p

/-- What stays, apart from the last read of a call. -/
structure Grows (w w' : World) : Prop where
  born : w.born ⊆ w'.born
  shown : ∀ n, w.shown n ⊆ w'.shown n
  served : ∀ u ∈ w.born.map Prod.fst, Served u w → Served u w'

/-- The last read of a call is its own. -/
structure Rely (j : Job) (w w' : World) : Prop extends Grows w w' where
  lastRead : ∀ n polls req, j = .create n polls req → w'.lastRead n = w.lastRead n

structure Guar (j : Job) (w w' : World) : Prop extends Grows w w' where
  lastRead : ∀ n, (∀ polls req, j ≠ .create n polls req) → w'.lastRead n = w.lastRead n

section

variable {s : Setting} {w w' : World} {j : Job}

theorem Grows.refl (w : World) : Grows w w := ⟨List.Subset.refl _, fun _ => List.Subset.refl _, fun _ _ => id⟩

theorem Grows.born_mem (h : Grows w w') {u : Str} (hu : u ∈ w.born.map Prod.fst) : u ∈ w'.born.map Prod.fst :=
  List.map_subset Prod.fst h.born hu

theorem Grows.trans {w1 w2 w3 : World} (h : Grows w1 w2) (h' : Grows w2 w3) : Grows w1 w3 :=
  ⟨List.Subset.trans h.born h'.born, fun n => List.Subset.trans (h.shown n) (h'.shown n),
    fun u hu hs => h'.served u (h.born_mem hu) (h.served u hu hs)⟩

theorem Rely.refl (j : Job) (w : World) : Rely j w w := ⟨.refl w, fun _ _ _ _ => rfl⟩

theorem Rely.trans {w1 w2 w3 : World} (h : Rely j w1 w2) (h' : Rely j w2 w3) : Rely j w1 w3 :=
  ⟨h.toGrows.trans h'.toGrows, fun n polls req hj => (h'.lastRead n polls req hj).trans (h.lastRead n polls req hj)⟩

theorem Guar.refl (j : Job) (w : World) : Guar j w w := ⟨.refl w, fun _ _ => rfl⟩

theorem Guar.rely {i : Job} (h : Guar i w w') (hij : Creation.apart i j = true) : Rely j w w' := by
  refine ⟨h.toGrows, fun n polls req hj => h.lastRead n fun polls' req' hi => ?_⟩
  subst hj hi
  simp [Creation.apart] at hij

theorem Genuine.mono {p : NVMePartition} (h : Genuine s w p) (hg : Grows w w') : Genuine s w' p :=
  ⟨h.toSound, hg.born_mem h.born, fun hnqn => hg.served _ h.born (h.served hnqn)⟩

theorem Inv.cur (h : Inv s w) {q : NVMePartition} (hcur : w.partition.cur = some q) : Genuine s w q :=
  h q (hcur ▸ w.partition.cur_mem)

/-! ### Requests keep it -/

/-- What a write may make of a stored partition. -/
structure Succeeds (s : Setting) (q q' : NVMePartition) : Prop where
  uid : q'.metadata.uid = q.metadata.uid
  sound : Sound s q'
  served : q.status.nqn ≠ [] → q'.status.nqn ≠ []

/-- The notes of a state, apart from those of the calls. -/
structure SameNotes (w w' : World) : Prop where
  born : w'.born = w.born
  shown : w'.shown = w.shown

theorem Grows.of_served (h : SameNotes w w') (hserved : ∀ u ∈ w.born.map Prod.fst, Served u w → Served u w') :
    Grows w w' := by
  refine ⟨?_, fun n => ?_, hserved⟩
  · rw [h.born]
    exact List.Subset.refl _
  · rw [h.shown]
    exact List.Subset.refl _

theorem Inv.write (h : Inv s w) {q : NVMePartition} (hcur : w.partition.cur = some q) {v : Option NVMePartition}
    (hv : ∀ q', v = some q' → Succeeds s q q') (hpartition : w'.partition = w.partition.write v)
    (hnotes : SameNotes w w') : Inv s w' ∧ Grows w w' := by
  have hserved : ∀ u, Served u w → Served u w' := by
    intro u hu q' hq' huid
    rw [hpartition] at hq'
    have hsucc := hv q' hq'
    exact hsucc.served (hu q hcur (hsucc.uid.symm.trans huid))
  have hg : Grows w w' := .of_served hnotes fun u _ => hserved u
  refine ⟨fun p hp => ?_, hg⟩
  rw [hpartition, Feed.versions_write] at hp
  rcases List.mem_append.1 hp with hold | hnew
  · exact (h p hold).mono hg
  have hsome : v = some p := (List.mem_singleton.1 hnew).symm
  have hsucc := hv p hsome
  refine ⟨hsucc.sound, ?_, fun hnqn q' hq' _ => ?_⟩
  · rw [hsucc.uid]
    exact hg.born_mem (h.cur hcur).born
  · rw [hpartition] at hq'
    obtain rfl : q' = p := Option.some.inj (hq'.symm.trans hsome)
    exact hnqn

theorem Sound.succeeds {q q' : NVMePartition} (h : Sound s q) (hkey : q'.key = q.key)
    (huid : q'.metadata.uid = q.metadata.uid) (hstatus : q'.status = q.status) : Succeeds s q q' := by
  refine ⟨huid, ⟨hkey.trans h.key, fun i hi => ?_, ?_⟩, ?_⟩
  · rw [huid] at hi
    rw [hstatus]
    exact h.own i hi
  · rw [hstatus]
    exact h.exported
  · rw [hstatus]
    exact id

theorem Inv.delete (h : Inv s w) : Inv s w.delete.2 ∧ Grows w w.delete.2 := by
  unfold World.delete
  split
  · exact ⟨h, .refl w⟩
  rename_i q hcur
  refine h.write hcur (fun q' hq' => ?_) rfl ⟨rfl, rfl⟩
  obtain ⟨-, -, -, -, huid, hkey, -, hstatus⟩ := delete_eq_some hq'
  exact (h.cur hcur).toSound.succeeds hkey huid hstatus

theorem Inv.patch (h : Inv s w) (base obj : NVMePartition) :
    Inv s (w.onPartition (Slot.patch base obj)).2 ∧ Grows w (w.onPartition (Slot.patch base obj)).2 := by
  unfold World.onPartition
  rcases Slot.patch_cases base obj w.partition with ⟨err, heq⟩ | ⟨q, hcur, heq⟩
  · rw [heq]
    exact ⟨h, .refl w⟩
  rw [heq]
  refine h.write hcur (fun q' hq' => ?_) rfl ⟨rfl, rfl⟩
  rw [settle_eq_some hq']
  exact (h.cur hcur).toSound.succeeds rfl rfl rfl

theorem Inv.create (h : Inv s w) {uid : Str} {obj : NVMePartition} {served : Except Err NVMePartition × World}
    (hkey : obj.key = s.key) (hs : w.create j uid obj = some served) : Inv s served.2 ∧ Grows w served.2 := by
  have hmatched : ∀ (w1 : World) (u : Str), Inv s w1 → Inv s (w1.noteMatched u j) ∧ Grows w1 (w1.noteMatched u j) := by
    intro w1 u hi
    have hg : Grows w1 (w1.noteMatched u j) := by
      cases j <;> exact .of_served ⟨rfl, rfl⟩ fun _ _ => id
    refine ⟨fun p hp => (hi p ?_).mono hg, hg⟩
    cases j <;> exact hp
  unfold World.create at hs
  split at hs
  · cases hs
    exact hmatched w _ h
  rename_i hcur
  obtain ⟨hfresh, hs⟩ := Option.ite_none_left_eq_some.1 hs
  cases hs
  have hserved : ∀ u ∈ w.born.map Prod.fst, Served u (w.store uid obj) := by
    intro u hu q hq huid
    obtain rfl := Option.some.inj hq
    obtain rfl : uid = u := huid
    exact absurd hu hfresh
  have hg : Grows w (w.store uid obj) :=
    ⟨List.subset_cons_self _ _, fun _ => List.Subset.refl _, fun u hu _ => hserved u hu⟩
  have hi : Inv s (w.store uid obj) := by
    intro p hp
    rcases List.mem_append.1 hp with hold | hnew
    · exact (h p hold).mono hg
    · obtain rfl := Option.some.inj (List.mem_singleton.1 hnew)
      exact ⟨⟨hkey, fun _ _ => ⟨.inl rfl, .inl rfl, .inl rfl⟩, nofun⟩, List.mem_cons_self .., fun hne => absurd rfl hne⟩
  obtain ⟨hi', hg'⟩ := hmatched _ uid hi
  exact ⟨hi', hg.trans hg'⟩

theorem Inv.readCached (h : Inv s w) (j : Job) (skip : ℕ) :
    Inv s (w.readCached j skip).2 ∧ Grows w (w.readCached j skip).2 ∧
    ∀ p, (w.readCached j skip).1 = .ok p →
      Genuine s w p ∧ ∀ n, j = .pass n → p.metadata.uid ∈ (w.readCached j skip).2.shown n := by
  obtain ⟨v, hshows, hfound⟩ := Slot.readCached_shows skip w.partition
  have hserved : ∀ u, Served u w → Served u (w.readCached j skip).2 := by
    intro u hu q hq
    refine hu q (hshows.cur_eq ▸ ?_)
    cases j <;> exact hq
  have hg : Grows w (w.readCached j skip).2 := by
    refine ⟨?_, fun m => ?_, fun u _ => hserved u⟩
    · cases j <;> exact List.Subset.refl _
    · cases j with
      | create n polls req => exact List.Subset.refl _
      | delete polls volumeID => exact List.Subset.refl _
      | pass n => exact Creation.subset_set_cons m
  refine ⟨fun p hp => (h p (hshows.suffix.subset ?_)).mono hg, hg, fun p hp => ⟨?_, ?_⟩⟩
  · cases j <;> exact hp
  · exact h p (found_eq_ok (hfound.symm.trans hp) ▸ hshows.mem)
  · rintro n rfl
    have hread : (w.onPartition (Slot.readCached skip)).1 = .ok p := hp
    simp [World.readCached, World.noteShown, hread, Creation.set, Except.toOption]

/-! ### Patches of the status -/

/-- The patch records no identity but that of the partition with the UID. -/
structure Names (s : Setting) (uid : Str) (base obj : NVMePartition) : Prop where
  externalID : obj.status.externalID = base.status.externalID ∨
    ∀ i, Identifies s uid i → obj.status.externalID = i.externalID
  volumeID : obj.status.volumeID = base.status.volumeID ∨ ∀ i, Identifies s uid i → obj.status.volumeID = i.volumeHandle

/-- The patch does not say that the partition is exported. -/
structure Quiet (base obj : NVMePartition) : Prop where
  nqn : obj.status.nqn = base.status.nqn
  state : obj.status.state = base.status.state ∨ obj.status.state ≠ .exported

/-- The patch says that the partition with the UID is exported, and where. -/
structure Exports (s : Setting) (uid : Str) (obj : NVMePartition) : Prop where
  set : obj.status.nqn ≠ []
  own : ∀ i, Identifies s uid i → obj.status.nqn = VolumeIdentity.nqn i.externalID

/-- What the export of the partition with the UID is called. -/
def TargetOf (s : Setting) (uid nqn : Str) : Prop := ∀ i, Identifies s uid i → nqn = VolumeIdentity.nqn i.externalID

/-- What has to hold when a call is made: whatever is named is named after a partition that the pass was shown. -/
def Req (s : Setting) (j : Job) (c : Call) (w : World) : Prop :=
  match c with
  | .api (.patchStatus .partition base obj) => ∃ n, j = .pass n ∧ (∃ u ∈ w.shown n, Names s u base obj) ∧
      (Quiet base obj ∨ (∃ u ∈ w.shown n, Exports s u obj) ∧
        (base.status.nqn ≠ [] → ∃ u ∈ w.shown n, Served u w))
  | .plugin (.exportVolume volumeName _ _ _ _) =>
    ∃ n, j = .pass n ∧ ∃ u ∈ w.shown n, TargetOf s u (VolumeIdentity.nqn volumeName)
  | .plugin (.unexportVolume nqn) => ∃ n, j = .pass n ∧ ∃ u ∈ w.shown n, TargetOf s u nqn
  | _ => True

/-- A field that is left alone, or set to its proper value, has its proper value or none. -/
theorem mergeField_own {base new stored own : Str} (hstored : stored = [] ∨ stored = own) (hnew : new = base ∨ new = own) :
    mergeField base new stored = [] ∨ mergeField base new stored = own := by
  rcases hnew with rfl | rfl
  · rw [mergeField_self]
    exact hstored
  rcases mergeField_cases base new stored with h | h
  · rw [h]
    exact hstored
  · exact .inr h

theorem nqn_merge {q base obj : NVMePartition} (hquiet : Quiet base obj ∨ obj.status.nqn ≠ [])
    (h : q.status.nqn ≠ []) : (NVMePartitionStatus.merge base.status obj.status q.status).nqn ≠ [] := by
  show mergeField base.status.nqn obj.status.nqn q.status.nqn ≠ []
  rcases hquiet with hquiet | hset
  · rw [hquiet.nqn, mergeField_self]
    exact h
  rcases mergeField_cases base.status.nqn obj.status.nqn q.status.nqn with heq | heq
  · rw [heq]
    exact h
  · rw [heq]
    exact hset

/-- **The identity is recorded on its own partition.** -/
theorem Inv.patchStatus (h : Inv s w) {base obj : NVMePartition} (hreq : Req s j (.api (.patchStatus .partition base obj)) w)
    (hg : steady j (.api (.patchStatus .partition base obj)) w = true) :
    Inv s (w.onPartition (Slot.patchStatus .merge base obj)).2 ∧
    Grows w (w.onPartition (Slot.patchStatus .merge base obj)).2 := by
  obtain ⟨n, rfl, ⟨u, hu, hnames⟩, hexport⟩ := hreq
  unfold World.onPartition
  rcases Slot.patchStatus_cases NVMePartitionStatus.merge base obj w.partition with heq | ⟨q, hcur, heq⟩
  · rw [heq]
    exact ⟨h, .refl w⟩
  rw [heq]
  have hshown : ∀ u ∈ w.shown n, u = q.metadata.uid := by
    simpa only [steady, hcur, Option.all_some, List.all_eq_true, decide_eq_true_eq] using hg
  have hq := h.cur hcur
  have hquiet : Quiet base obj ∨ obj.status.nqn ≠ [] := hexport.imp_right fun he => he.1.elim fun _ h => h.2.set
  refine h.write hcur (fun q' hq' => ?_) rfl ⟨rfl, rfl⟩
  obtain rfl := Option.some.inj hq'
  refine ⟨rfl, ⟨hq.key, fun i hi => ?_, fun hstate => ?_⟩, nqn_merge hquiet⟩
  · have hown := hq.own i hi
    refine ⟨mergeField_own hown.externalID ?_, mergeField_own hown.volumeID ?_, mergeField_own hown.nqn ?_⟩
    · exact hnames.externalID.imp_right fun hi' => hi' i (hshown u hu ▸ hi)
    · exact hnames.volumeID.imp_right fun hi' => hi' i (hshown u hu ▸ hi)
    · rcases hexport with hquiet | ⟨⟨u', hu', hexports⟩, -⟩
      · exact .inl hquiet.nqn
      · exact .inr (hexports.own i (hshown u' hu' ▸ hi))
  · -- either it was exported before, or the patch says where
    have hmerged : mergeField base.status.state obj.status.state q.status.state = .exported := hstate
    by_cases hsame : obj.status.state = base.status.state
    · rw [hsame, mergeField_self] at hmerged
      exact nqn_merge hquiet (hq.exported hmerged)
    rw [mergeField, if_neg hsame] at hmerged
    rcases hexport with hquiet | ⟨⟨u', hu', hexports⟩, hserved⟩
    · exact absurd hmerged (hquiet.state.resolve_left hsame)
    by_cases hbase : base.status.nqn = []
    · show mergeField base.status.nqn obj.status.nqn q.status.nqn ≠ []
      rw [mergeField, if_neg fun heq => hexports.set (heq.trans hbase)]
      exact hexports.set
    · obtain ⟨u'', hu'', hs⟩ := hserved hbase
      exact nqn_merge hquiet (hs q hcur (hshown u'' hu'').symm)

/-- **Whatever others do keeps it.** -/
theorem Inv.change (h : Inv s w) {ch : Choice} (hleaves : leaves ch w = true) (hw : w.change ch.change = some w') :
    Inv s w' ∧ ∀ j, Rely j w w' := by
  cases hc : ch.change with
  | write obj =>
    rw [hc] at hw
    obtain ⟨q, hcur, hite⟩ := Option.bind_eq_some_iff.1 hw
    obtain ⟨-, rfl⟩ := (Option.ite_none_right_eq_some.1 hite).imp_right Option.some.inj
    simp only [leaves, hc, hcur, Bool.and_eq_true, Bool.or_eq_true, decide_eq_true_eq] at hleaves
    obtain ⟨⟨hexternal, hnqn⟩, hstate⟩ := hleaves
    have hq := h.cur hcur
    have hsucc : Succeeds s q (World.written q obj) := by
      refine ⟨rfl, ⟨hq.key, fun i hid => ?_, fun he => ?_⟩, fun hne => ?_⟩
      · have hown := hq.own i hid
        refine ⟨?_, hown.volumeID, ?_⟩
        · show obj.status.externalID = [] ∨ obj.status.externalID = i.externalID
          rw [hexternal]
          exact hown.externalID
        · show obj.status.nqn = [] ∨ obj.status.nqn = VolumeIdentity.nqn i.externalID
          rw [hnqn]
          exact hown.nqn
      · show obj.status.nqn ≠ []
        rw [hnqn]
        exact hq.exported (hstate.resolve_left fun hne => hne he)
      · show obj.status.nqn ≠ []
        rw [hnqn]
        exact hne
    have hkept : Inv s (w.setPartition (w.partition.write (World.written q obj).settle)) ∧
        Grows w (w.setPartition (w.partition.write (World.written q obj).settle)) :=
      h.write hcur (fun q' hq' => settle_eq_some hq' ▸ hsucc) rfl ⟨rfl, rfl⟩
    exact ⟨hkept.1, fun j => ⟨hkept.2, fun _ _ _ _ => rfl⟩⟩
  | delete =>
    rw [hc] at hw
    cases hw
    refine ⟨h.delete.1, fun j => ⟨h.delete.2, fun n _ _ _ => ?_⟩⟩
    unfold World.delete
    split <;> rfl

/-- **Every request keeps the invariant**, given what it requires and what the run meets. -/
theorem answer_kept (h : Inv s w) {ch : Choice} {c : Call} {r : c.Resp} (hreq : Req s j c w)
    (hg : steady j c w = true) (ha : Creation.answer s ch j c w = some (r, w')) : Inv s w' ∧ Guar j w w' := by
  have hkept : Inv s w' ∧ Grows w w' := by
    cases Creation.answer_move ha with
    | same => exact ⟨h, .refl w⟩
    | read =>
      have hgrows : Grows w (w.noteRead j) := by
        cases j <;> exact .of_served ⟨rfl, rfl⟩ fun _ _ => id
      refine ⟨fun p hp => (h p ?_).mono hgrows, hgrows⟩
      cases j <;> exact hp
    | readCached skip => exact (h.readCached j skip).imp_right And.left
    | create hkey hs => exact h.create hkey hs
    | delete => exact h.delete
    | patch base obj => exact h.patch base obj
    | patchStatus base obj => exact h.patchStatus hreq hg
  exact ⟨hkept.1, hkept.2, fun n => (Creation.answer_move ha).lastRead⟩

end

/-! ### Programs -/

variable {pool : Pool Call Call.Resp World Job Creation.Result}

variable {i : VolumeIdentity.Identity}

section

variable [StdLib] {s : Setting} {w w' : World} {j : Job}

/-- What is answered leads to the target of what the call has read last. -/
def LeadsTo (s : Setting) (n : ℕ) (resp : CreateVolumeResponse) (w : World) : Prop :=
  ∃ p, w.lastRead n = some p ∧ ∀ i, Identifies s p.metadata.uid i →
    resp.volumeContext.lookup (str "nqn") = some (VolumeIdentity.nqn i.externalID) ∧
    unstageNQN resp.volumeID = .ok (VolumeIdentity.nqn i.externalID)

def Post (s : Setting) (j : Job) (r : Creation.Result) (w : World) : Prop :=
  match j, r with
  | .create n _ _, .create (.ok resp) => LeadsTo s n resp w
  | _, _ => True

def outline (s : Setting) : Outline ((machine s).guarded steady).system where
  Inv := Inv s
  Rely := Rely
  Guar := Guar
  Req := Req s
  Post := Post s
  rely_refl := .refl
  rely_trans _ := .trans
  init := by
    rintro w ⟨hp, -⟩ q hq
    rw [hp] at hq
    cases List.mem_singleton.1 hq
  env := by
    intro w w' hi hw
    obtain ⟨ch, hleaves, hch⟩ := Machine.env_limited _ hw
    exact hi.change hleaves hch
  guar i j w w' htog _ _ hg := hg.rely htog

theorem closed : (outline s).Closed :=
  fun hi hreq hg ha => answer_kept hi hreq hg (Option.filter_eq_some_iff.1 ha).1

theorem grows_safe {α : Type} {p : Proc α} {P : Call → Prop} {I : World → Prop} (hp : p.Only P) (hw : I w)
    (hI : ∀ w1 w2, I w1 → Grows w1 w2 → I w2) (hreq : ∀ c w1, P c → I w1 → Req s j c w1) :
    (outline s).Safe j (fun _ => I) p w :=
  closed.only hp hw (fun w1 w2 h hr => hI w1 w2 h hr.toGrows) hreq fun _ _ w1 _ w2 _ _ h _ _ hg => hI w1 w2 h hg.toGrows

/-! ### `CreateVolume` -/

variable {n polls : ℕ} {req : CreateVolumeRequest}

omit [StdLib] in
theorem req_of_looks {c : Call} (hc : looks c = true) (w : World) : Req s j c w := by
  unfold looks at hc
  split at hc <;> trivial

/-- What a read of the call has shown. -/
structure Read (s : Setting) (n : ℕ) (p : NVMePartition) (w : World) : Prop extends Sound s p where
  last : w.lastRead n = some p
  born : p.metadata.uid ∈ w.born.map Prod.fst
  served : p.status.nqn ≠ [] → Served p.metadata.uid w

variable {p : NVMePartition}

omit [StdLib] in
theorem Read.mono {w1 w2 : World} (h : Read s n p w1) (hr : Rely (.create n polls req) w1 w2) : Read s n p w2 :=
  ⟨h.toSound, (hr.lastRead n polls req rfl).trans h.last, hr.born_mem h.born, fun hne => hr.served _ h.born (h.served hne)⟩

/-- **What a read of the call shows**: what is stored, which is what it has read before. -/
theorem read_safe (key : Key) (w : World) : (outline s).Safe (.create n polls req)
    (fun r w1 => ∀ p, r = .ok p → Read s n p w1 ∧ ∀ p0, Read s n p0 w → p0.status.nqn ≠ [] → p.status.nqn ≠ [])
    (get .partition .api key) w := by
  refine closed.call (fun _ _ _ => trivial) (fun r w1 w2 h hr p hp => ⟨(h p hp).1.mono hr, (h p hp).2⟩) ?_
  intro ch w1 r w2 hr hi hg ha _ hguar p hp
  subst hp
  have hread : (w1.read (.create n polls req)) = (.ok p, w2) := by
    replace ha := (Option.filter_eq_some_iff.1 ha).1
    simp only [Creation.answer] at ha
    split at ha
    · exact Fate.answer_ok ha
    · cases Fate.answer_ok ha
  obtain ⟨hfound, rfl⟩ := Prod.mk.inj hread
  have hcur := found_eq_ok hfound
  have hq := (hi.cur hcur).mono hguar.toGrows
  refine ⟨⟨hq.toSound, ?_, hq.born, hq.served⟩, fun p0 hp0 hne => ?_⟩
  · show Creation.set w1.lastRead n w1.partition.cur n = some p
    rw [Creation.set, if_pos rfl, hcur]
  · have hlast := (hp0.mono hr).last
    have huid : p0.metadata.uid = p.metadata.uid := by
      simpa only [steady, hlast, hcur, decide_eq_true_eq] using hg
    exact (hp0.mono hr).served hne p hcur huid.symm

/-- The call has read the partition with a target. -/
def Ready (s : Setting) (n : ℕ) (r : Except Err Unit) (w : World) : Prop :=
  r = .ok () → ∃ p, Read s n p w ∧ p.status.nqn ≠ []

theorem waitForPartitionReady_safe (key : Key) (rounds : ℕ) (w : World) :
    (outline s).Safe (.create n polls req) (Ready s n) (waitForPartitionReady key rounds) w := by
  have hfail : ∀ (err : Err) (w : World), (outline s).Safe (.create n polls req) (Ready s n) (fail err) w :=
    fun err w => Terms.Safe.ret fun _ _ _ => nofun
  have honce : ∀ again : Proc (Except Err Unit), (∀ w, (outline s).Safe (.create n polls req) (Ready s n) again w) → ∀ w,
      (outline s).Safe (.create n polls req) (Ready s n) (waitForPartitionReadyOnce key again) w := by
    intro again hagain w
    refine .bind ((closed.complies (P := (looks ·)) (only_op rfl) fun c w hc => req_of_looks hc w).conseq
      fun tick w1 _ _ => ?_)
    cases tick with
    | timer => exact hfail _ w1
    | done err => exact hfail err w1
    | ticker =>
      refine .bind ((read_safe key w1).conseq fun r w2 _ h2 => ?_)
      rcases r with err | p
      · exact hagain w2
      simp only
      split
      · rename_i hstate
        have hread := (h2 p rfl).1
        exact .ret fun w3 hr _ _ => ⟨p, hread.mono hr, hread.exported hstate⟩
      split
      · exact hfail _ w2
      · exact hagain w2
  induction rounds generalizing w with
  | zero => exact honce _ (fun w => hfail _ w) w
  | succ rounds ih => exact honce _ (fun w => ih w) w

omit [StdLib] in
/-- The volume ID of a partition is read back as its identity, and leads to its target. -/
theorem unstageNQN_of_own {volumeID : Str} (hp : Sound s p)
    (hi : Identifies s p.metadata.uid i) (hid : volumeIDForPartition p = .ok volumeID) :
    unstageNQN volumeID = .ok (VolumeIdentity.nqn i.externalID) := by
  have hnew : VolumeIdentity.new p.metadata.ns p.metadata.name p.metadata.uid = .ok i := by
    have hkey := hp.key
    unfold Identifies at hi
    rw [← hkey] at hi
    exact hi
  have hvolume : volumeID = i.volumeHandle := by
    unfold volumeIDForPartition at hid
    split at hid
    · rw [hnew] at hid
      exact (Except.ok.inj hid).symm
    rename_i hne
    rw [← Except.ok.inj hid]
    exact (hp.own i hi).volumeID.resolve_left hne
  rw [hvolume]
  simp only [unstageNQN, VolumeIdentity.parseVolumeHandle_new hnew, hnew]

/-- **The answer of a call leads to the target of its partition.** -/
theorem createVolume_safe (w : World) : (outline s).Safe (.create n polls req)
    (fun r w1 => ∀ resp, r = .ok resp → LeadsTo s n resp w1) (createVolume polls req) w := by
  unfold createVolume
  split
  · exact .ret fun _ _ _ => nofun
  rename_i normalized hnormalized
  have hcreate : (createOrReuse normalized).Only fun c => ∀ w, Req s (.create n polls req) c w := by
    refine .check (only_op fun _ => trivial) (fun err => ?_) fun _ => only_done ()
    split
    · exact only_fail _
    refine .next (only_op fun _ => trivial) fun existing => ?_
    split
    · exact only_fail _
    · exact only_done ()
  refine .andThen (closed.complies hcreate fun _ w hc => hc w)
    (fun _ _ _ => .ret fun _ _ _ => nofun) fun _ w1 _ => ?_
  refine .andThen (waitForPartitionReady_safe normalized.key polls w1) (fun _ _ _ => .ret fun _ _ _ => nofun)
    fun _ w2 h2 => ?_
  obtain ⟨p0, hp0, hne0⟩ := h2 rfl
  refine .andThen (read_safe normalized.key w2) (fun _ _ _ => .ret fun _ _ _ => nofun) fun p w3 h3 => ?_
  obtain ⟨hread, hserved⟩ := h3 p rfl
  refine .ret fun w4 hr _ resp hresp => ?_
  obtain ⟨hid, hcontext⟩ := createdVolume_eq_ok hresp
  refine ⟨p, (hread.mono hr).last, fun i hi => ⟨?_, unstageNQN_of_own hread.toSound hi hid⟩⟩
  rw [hcontext, ← (hread.own i hi).nqn.resolve_left (hserved p0 hp0 hne0)]
  rfl

/-! ### The pass -/

/-- The call names nothing but the partition with the UID, and does not say that it is exported. -/
def Fits (s : Setting) (uid : Str) (c : Call) : Prop :=
  match c with
  | .api (.patchStatus .partition base obj) => Names s uid base obj ∧ Quiet base obj
  | .plugin (.exportVolume volumeName _ _ _ _) => TargetOf s uid (VolumeIdentity.nqn volumeName)
  | .plugin (.unexportVolume nqn) => TargetOf s uid nqn
  | _ => True

section pass

variable {uid externalID : Str}

section

omit [StdLib]

theorem req_of_fits {c : Call} (hc : Fits s uid c) (hw : uid ∈ w.shown n) : Req s (.pass n) c w := by
  unfold Fits at hc
  unfold Req
  split at hc
  · exact ⟨n, rfl, ⟨uid, hw, hc.1⟩, .inl hc.2⟩
  · exact ⟨n, rfl, uid, hw, hc⟩
  · exact ⟨n, rfl, uid, hw, hc⟩
  · trivial

theorem fits_of_looksUp (c : Call) (hc : looksUp c = true) : Fits s uid c := by
  unfold looksUp at hc
  split at hc <;> trivial

theorem fits_of_followsAttachment (c : Call) (hc : followsAttachment c = true) : Fits s uid c := by
  unfold followsAttachment at hc
  split at hc <;> trivial

theorem fits_of_minor (base obj : NVMePartition) (h : Minor base obj) :
    Fits s uid (.api (.patchStatus .partition base obj)) := by
  refine ⟨⟨.inl h.externalID, .inl h.volumeID⟩, h.nqn, h.state.imp_right fun hfailed => ?_⟩
  rw [hfailed]
  exact nofun

end

theorem then_safe {ε α : Type} {q : Proc (Except ε α)} {f : ε → Proc (Except Err Agent.Result)}
    {k : α → Proc (Except Err Agent.Result)} (hw : uid ∈ w.shown n) (hq : q.Only (Fits s uid))
    (hf : ∀ e, (f e).Only (Fits s uid)) (hk : ∀ a w1, uid ∈ w1.shown n → (outline s).Complies (.pass n) (k a) w1) :
    (outline s).Complies (.pass n) (q.check f k) w := by
  have honly : ∀ {β : Type} {p : Proc β} {w : World}, p.Only (Fits s uid) → uid ∈ w.shown n →
      (outline s).Safe (.pass n) (fun _ w1 => uid ∈ w1.shown n) p w := fun hp hw =>
    grows_safe hp hw (fun _ _ h hg => hg.shown n h) fun _ _ hc => req_of_fits hc
  exact .andThen (honly hq hw) (fun e _ h1 => (honly (hf e) h1).conseq fun _ _ _ _ => trivial) fun a w1 h1 => hk a w1 h1

theorem fits_safe {p : Proc (Except Err Agent.Result)} (hw : uid ∈ w.shown n) (hp : p.Only (Fits s uid)) :
    (outline s).Complies (.pass n) p w :=
  (grows_safe hp hw (fun _ _ h hg => hg.shown n h) fun _ _ hc => req_of_fits hc).conseq fun _ _ _ _ => trivial

omit [StdLib] in
theorem failure_fits (p : NVMePartition) (reason : Str) (err : Err) (terminal : Bool) :
    (recordProvisioningFailure p reason err terminal).Only (Fits s uid) :=
  recordProvisioningFailure_only fits_of_looksUp fits_of_minor p reason err terminal

omit [StdLib] in
theorem reject_fits (p : NVMePartition) (err : Err) : (rejectUnauthorizedProvisioning p err).Only (Fits s uid) :=
  rejectUnauthorizedProvisioning_only fits_of_looksUp fits_of_minor p err

theorem show_safe (w : World) : (outline s).Safe (.pass n)
    (fun r w1 => ∀ p, r = .ok p → Genuine s w1 p ∧ p.metadata.uid ∈ w1.shown n) (get .partition .cache s.key) w := by
  refine closed.call (fun _ _ _ => trivial) (fun r w1 w2 h hr p hp =>
    ⟨(h p hp).1.mono hr.toGrows, hr.shown n (h p hp).2⟩) ?_
  intro ch w1 r w2 _ hi _ ha _ hguar p hp
  subst hp
  obtain ⟨-, ha⟩ := Option.ite_none_right_eq_some.1 (Option.filter_eq_some_iff.1 ha).1
  have hserved : w1.readCached (.pass n) ch.skip = (.ok p, w2) := Fate.answer_ok ha
  obtain ⟨-, -, hread⟩ := hi.readCached (.pass n) ch.skip
  rw [hserved] at hread
  obtain ⟨hq, hshown⟩ := hread p rfl
  exact ⟨hq.mono hguar.toGrows, hshown n rfl⟩

/-- **The target is recorded once the volume is exported.** -/
theorem recordExport_safe {f : NVMePartitionStatus → NVMePartitionStatus} {nqn : Str} (hset : nqn ≠ [])
    (htarget : TargetOf s uid nqn) (hf : ∀ st, (f st).externalID = st.externalID ∧ (f st).volumeID = st.volumeID ∧
      (f st).nqn = nqn) (hw : uid ∈ w.shown n) : (outline s).Complies (.pass n) (updatePartitionStatus s.key f) w := by
  have hshow : (outline s).Safe (.pass n) (fun r w1 => uid ∈ w1.shown n ∧ ∀ p, r = .ok p →
      Genuine s w1 p ∧ p.metadata.uid ∈ w1.shown n) (get .partition .cache s.key) w := by
    intro w1 hr hi
    obtain ⟨hreq, hstep⟩ := show_safe w1 w1 (.refl _ w1) hi
    refine ⟨hreq, fun r w2 hs => ?_⟩
    obtain ⟨hi2, hguar, hret⟩ := hstep r w2 hs
    refine ⟨hi2, hguar, fun w3 hr3 hi3 => ⟨hr3.shown n (hguar.shown n (hr.shown n hw)), hret w3 hr3 hi3⟩⟩
  refine .next hshow fun latest w1 h1 => ?_
  obtain ⟨huid, hlatest⟩ := h1
  obtain ⟨hgenuine, hshown⟩ := hlatest latest rfl
  obtain ⟨hexternal, hvolume, hnqn⟩ := hf latest.status
  refine .next (closed.op fun w2 hr _ => ?_) fun _ _ _ => .ended
  refine ⟨n, rfl, ⟨uid, hr.shown n huid, .inl hexternal, .inl hvolume⟩, .inr ⟨⟨uid, hr.shown n huid, ?_, ?_⟩, ?_⟩⟩
  · exact fun heq => hset (hnqn.symm.trans heq)
  · exact fun i hi => hnqn.trans (htarget i hi)
  · exact fun hne => ⟨_, hr.shown n hshown, (hgenuine.mono hr.toGrows).served hne⟩

variable {resolved : ResolvedPartitionPlugins} {backend manager : Str}
  (hb : resolved.targetBackend = .atomic backend) (hv : resolved.volumeManager = .atomic manager)
  (hid : TargetOf s uid (VolumeIdentity.nqn externalID))
include hb hid

theorem exportPartition_safe (hw : uid ∈ w.shown n) (nodeName : Str) (p : NVMePartition) (backendVolumeID : Str) :
    (outline s).Complies (.pass n) (exportPartition nodeName s.key p resolved externalID backendVolumeID) w := by
  refine then_safe hw (rdmaEndpoint_only fits_of_looksUp nodeName) (fun _ => failure_fits p _ _ _) fun portalIP w1 h1 => ?_
  refine then_safe h1 (verifyProvisioningAuthorization_only fits_of_looksUp p) (reject_fits p) fun _ w2 h2 => ?_
  rw [hb]
  have hexport : (outline s).Safe (.pass n) (fun r w3 => uid ∈ w3.shown n ∧
      ∀ nqn, r = .ok nqn → nqn = VolumeIdentity.nqn externalID)
      (plugin (.exportVolume externalID backendVolumeID portalIP 4420 p.spec.targetOptions)) w2 := by
    refine closed.call (fun w3 hr _ => ⟨n, rfl, uid, hr.shown n h2, hid⟩) (fun r w3 w4 h hr => ⟨hr.shown n h.1, h.2⟩) ?_
    intro ch w3 r w4 hr _ _ ha _ hguar
    refine ⟨hguar.shown n (hr.shown n h2), fun nqn hnqn => ?_⟩
    subst hnqn
    simpa [exportedUnder, Except.toOption] using (Option.filter_eq_some_iff.1 ha).2
  refine .andThen hexport (fun _ _ h3 => fits_safe h3.1 (failure_fits p _ _ _)) fun nqn w3 h3 => ?_
  obtain rfl := h3.2 nqn rfl
  have hset : VolumeIdentity.nqn externalID ≠ [] := by simp [VolumeIdentity.nqn, VolumeIdentity.nqnPrefix, str]
  exact .next (recordExport_safe hset hid (fun _ => ⟨rfl, rfl, rfl⟩) h3.1) fun _ _ _ => .ended

include hv

theorem carveVolume_safe (hw : uid ∈ w.shown n) (nodeName : Str) (p : NVMePartition) (devicePath deviceName : Str)
    (requestedAllocation : ℤ) : (outline s).Complies (.pass n)
      (carveVolume nodeName s.key p resolved externalID devicePath deviceName requestedAllocation) w := by
  unfold carveVolume
  rw [hv]
  refine then_safe hw (only_op trivial) (fun _ => failure_fits p _ _ _) fun _ w1 h1 => ?_
  refine then_safe h1 (verifyProvisioningAuthorization_only fits_of_looksUp p) (reject_fits p) fun _ w2 h2 => ?_
  refine then_safe h2 (only_op trivial) (fun _ => failure_fits p _ _ _) fun created w3 h3 => ?_
  split
  · exact fits_safe h3 (failure_fits p _ _ _)
  split
  · exact fits_safe h3 (failure_fits p _ _ _)
  refine then_safe h3 (persistBackendVolumeIdentity_only fits_of_looksUp fits_of_minor s.key p created) only_fail
    fun p' w4 h4 => ?_
  exact exportPartition_safe hb hid h4 nodeName p' created.backendVolumeID

theorem provisionPartition_safe (hw : uid ∈ w.shown n) (nodeName : Str) (p : NVMePartition) (requestedAllocation : ℤ) :
    (outline s).Complies (.pass n) (provisionPartition nodeName s.key p resolved externalID requestedAllocation) w := by
  refine then_safe hw (verifyProvisioningAuthorization_only fits_of_looksUp p) (reject_fits p) fun device w1 h1 => ?_
  refine then_safe h1 (rdmaEndpoint_only fits_of_looksUp nodeName) (fun _ => failure_fits p _ _ _) fun _ w2 h2 => ?_
  split
  · exact fits_safe h2 (failure_fits p _ _ _)
  have hsetup : ∀ pciAddress deviceName options,
      (resolved.targetBackend.setupDevice pciAddress deviceName options).Only (Fits s uid) := by
    rw [hb]
    exact fun _ _ _ => only_op trivial
  refine then_safe h2 (hsetup _ _ _) (fun _ => failure_fits p _ _ _) fun _ w3 h3 => ?_
  refine then_safe h3 (findProvisioningDevice_only fits_of_looksUp p _) (fun _ => failure_fits p _ _ _) fun path w4 h4 => ?_
  refine then_safe h4 (verifyProvisioningAuthorization_only fits_of_looksUp p) (reject_fits p) fun _ w5 h5 => ?_
  refine then_safe h5 (claimBackend_only fits_of_looksUp (fun _ _ => trivial) device _) (fun _ => failure_fits p _ _ _)
    fun _ w6 h6 => ?_
  exact carveVolume_safe hb hv hid h6 nodeName p _ _ requestedAllocation

theorem reconcileLive_safe (hw : uid ∈ w.shown n) (nodeName : Str) (p : NVMePartition) {volumeID : Str}
    (hexternal : ∀ i, Identifies s uid i → externalID = i.externalID)
    (hvolume : ∀ i, Identifies s uid i → volumeID = i.volumeHandle) : (outline s).Complies (.pass n)
      (reconcileLive nodeName s.key p resolved externalID volumeID) w := by
  unfold reconcileLive
  split
  · exact fits_safe hw (failure_fits p _ _ _)
  split
  · exact fits_safe hw (failure_fits p _ _ _)
  refine then_safe hw (verifyProvisioningAuthorization_only fits_of_looksUp p) (reject_fits p) fun _ w1 h1 => ?_
  refine then_safe h1 (updatePartitionStatus_only fits_of_looksUp
    (fun base => fits_of_minor base _ ⟨rfl, rfl, rfl, .inl rfl⟩) _) only_fail fun _ w2 h2 => ?_
  have hrecord : (updatePartitionStatus s.key fun status => { status with externalID, volumeID }).Only (Fits s uid) :=
    updatePartitionStatus_only fits_of_looksUp (fun base => ⟨⟨.inr hexternal, .inr hvolume⟩, rfl, .inl rfl⟩) s.key
  have hadd : ∀ q : NVMePartition, q.metadata = p.metadata → (addPartitionFinalizer q).Only (Fits s uid) := by
    intro q _
    unfold addPartitionFinalizer
    split
    · exact only_done q
    · exact only_op (P := Fits s uid) trivial
  refine then_safe h2 (ensurePartitionIdentityAndFinalizer_only hrecord hadd) only_fail fun p' w3 h3 => ?_
  have haccess : ∀ nqn hostNQN, (resolved.targetBackend.reconcileHostAccess nqn hostNQN).Only (Fits s uid) := by
    rw [hb]
    exact fun _ _ => only_op trivial
  have hcheck : ∀ f, resolved.targetBackend.checkExport = some f → ∀ nqn blockPath portalIP portalPort options,
      (f nqn blockPath portalIP portalPort options).Only (Fits s uid) := by
    rw [hb]
    rintro f ⟨⟩ nqn blockPath portalIP portalPort options
    exact only_op trivial
  refine then_safe h3 (reconcileExportedPartition_only fits_of_looksUp fits_of_followsAttachment haccess hcheck nodeName p')
    only_fail fun handled w4 h4 => ?_
  cases handled with
  | some result => exact .ended
  | none => exact provisionPartition_safe hb hv hid h4 nodeName p' _

end pass

omit [StdLib] in
theorem identitiesForPartition_own (hp : Sound s p)
    (hi : Identifies s p.metadata.uid i) : identitiesForPartition p = (i.externalID, i.volumeHandle) := by
  have hnew : VolumeIdentity.new p.metadata.ns p.metadata.name p.metadata.uid = .ok i := by
    unfold Identifies at hi
    rw [← hp.key] at hi
    exact hi
  have hne := VolumeIdentity.externalID_ne_nil hnew
  have hown := hp.own i hi
  have hvolume : (if p.status.volumeID = [] then i.volumeHandle else p.status.volumeID) = i.volumeHandle := by
    split
    · rfl
    · rename_i hset
      exact hown.volumeID.resolve_left hset
  unfold identitiesForPartition
  rw [hnew]
  rcases hown.externalID with hexternal | hexternal
  · rcases hown.nqn with hnqn | hnqn
    · simpa [hexternal, hnqn] using hvolume
    · simpa [hexternal, hnqn, hne] using hvolume
  · simpa [hexternal, hne] using hvolume

/-- **All that a pass names is the partition that it was shown.** -/
theorem pass_safe (n : ℕ) (w : World) : (outline s).Complies (.pass n) (reconcile .atomic s.nodeName s.key) w := by
  refine .check ((show_safe w).conseq fun r w1 _ h1 => ?_)
  rcases r with err | p
  · simp only
    split <;> exact .ended
  obtain ⟨hp, hshown⟩ := h1 p rfl
  have hexternal : ∀ i, Identifies s p.metadata.uid i → (identitiesForPartition p).1 = i.externalID :=
    fun i hi => congrArg Prod.fst (identitiesForPartition_own hp.toSound hi)
  have hvolume : ∀ i, Identifies s p.metadata.uid i → (identitiesForPartition p).2 = i.volumeHandle :=
    fun i hi => congrArg Prod.snd (identitiesForPartition_own hp.toSound hi)
  have htarget : TargetOf s p.metadata.uid (VolumeIdentity.nqn (identitiesForPartition p).1) :=
    fun i hi => congrArg VolumeIdentity.nqn (hexternal i hi)
  simp only
  split
  · exact .ended
  split
  · exact .ended
  split
  · split
    · exact fits_safe hshown (failure_fits p _ _ _)
    · exact .ended
  rename_i resolved hres
  obtain ⟨backend, manager, hb, hv⟩ := atomic_of_resolve hres
  split
  · have hdelete : ∀ devicePath deviceName volumeName identity,
        (resolved.volumeManager.deleteVolume devicePath deviceName volumeName identity).Only (Fits s p.metadata.uid) := by
      rw [hv]
      exact fun _ _ _ _ => only_op trivial
    refine fits_safe hshown (reconcilePartitionDeletion_only fits_of_looksUp (fun _ _ => trivial) hdelete
      fits_of_followsAttachment (fun _ => trivial) (fun _ _ => trivial) s.nodeName s.key p _ ?_)
    rw [hb]
    apply only_op
    -- the recorded target, or the one that is derived
    split
    · exact htarget
    · rename_i hset
      exact fun i hi => (hp.own i hi).nqn.resolve_left hset
  · exact reconcileLive_safe hb hv htarget hshown s.nodeName p hexternal hvolume

/-! ### Every run -/

theorem body_safe (j : Job) (w : World) : (outline s).Safe j (Post s j) (Creation.body s j) w := by
  cases j with
  | create n polls req =>
    refine .bind ((createVolume_safe w).conseq fun r w1 _ h1 => Terms.Safe.ret fun w2 hr _ => ?_)
    rcases r with st | resp
    · trivial
    obtain ⟨p, hlast, hleads⟩ := h1 resp rfl
    exact ⟨p, (hr.lastRead n polls req rfl).trans hlast, hleads⟩
  | delete polls volumeID =>
    have honly : (deleteVolume polls volumeID).Only fun c => ∀ w, Req s (.delete polls volumeID) c w :=
      deleteVolume_only (fun _ hc => req_of_looks hc) (fun _ _ => trivial) (fun _ => trivial) polls volumeID
    exact .bind ((closed.complies honly fun _ w hc => hc w).conseq fun _ w1 _ _ => .ended)
  | pass n => exact .bind ((pass_safe n w).conseq fun _ w1 _ _ => .ended)

theorem kept (h : ((machine s).guarded steady).system.Reachable pool) : (outline s).Kept pool :=
  Outline.Kept.reachable (fun j _ w _ _ => body_safe j w) h

/-- A volume that the kernel target was made to export is exported under its own name. -/
theorem kernel_exportVolume_ends (volumeName blockPath portalIP : Str) (portalPort : ℤ) (options : Options) :
    (Kernel.exportVolume volumeName blockPath portalIP portalPort options).Ends fun r =>
      ∀ nqn, r = .ok nqn → nqn = VolumeIdentity.nqn volumeName := by
  have hfail : ∀ err : Err, (fail err : Proc (Except Err Str)).Ends fun r =>
      ∀ nqn, r = .ok nqn → nqn = VolumeIdentity.nqn volumeName := fun err => nofun
  refine Prog.Ends.bind fun interrupted => ?_
  cases interrupted with
  | some err => exact hfail err
  | none =>
    dsimp only
    split
    · exact hfail _
    split
    · exact hfail _
    split
    · exact hfail _
    split
    · exact hfail _
    refine Prog.Ends.check hfail fun _ => Prog.Ends.check (fun _ => hfail _) fun _ => ?_
    refine Prog.Ends.check (fun _ => hfail _) fun _ => Prog.Ends.check hfail fun _ => ?_
    refine Prog.Ends.check hfail fun _ => Prog.Ends.check hfail fun _ => Prog.Ends.check (fun _ => hfail _) fun _ => ?_
    rintro nqn ⟨⟩
    rfl

omit [StdLib] in
/-- Partitions with different UIDs have different targets, if the hash tells them apart. -/
theorem nqn_ne {s s' : Setting} {uid uid' : Str} {i' : VolumeIdentity.Identity} (hid : Identifies s uid i)
    (hid' : Identifies s' uid' i') (hne : uid ≠ uid')
    (hsha : (sha256 uid).take 16 = (sha256 uid').take 16 → uid = uid') :
    VolumeIdentity.nqn i.externalID ≠ VolumeIdentity.nqn i'.externalID := by
  intro heq
  have hexternal : i.externalID = i'.externalID := List.append_cancel_left heq
  rw [VolumeIdentity.new_externalID hid, VolumeIdentity.new_externalID hid'] at hexternal
  exact hne (hsha (hexEncode_inj (List.append_cancel_left hexternal)))

/-- **One target.**  In every run in which a call of `CreateVolume` is not shown another partition than the one it has
read before, and the agent writes to the status of a partition only if it is what its pass was shown, the
partition with this UID has one target: what is recorded for it, and is there once it is exported; what a pass
that was shown no other partition exports and unexports, with either backend; and what an answer of `CreateVolume`
about it names, which is also what a node disconnects from, given the volume ID of the answer.  A partition of
another name or UID, in such a run, has another target. -/
theorem one_target (h : ((machine s).guarded steady).system.Reachable pool) {uid : Str}
    (hid : VolumeIdentity.new s.key.ns s.key.name uid = .ok i) :
    (∀ p, some p ∈ pool.world.partition.versions → p.metadata.uid = uid →
      (p.status.nqn = [] ∨ p.status.nqn = VolumeIdentity.nqn i.externalID) ∧
      (p.status.state = .exported → p.status.nqn = VolumeIdentity.nqn i.externalID)) ∧
    (∀ n volumeName blockPath portalIP portalPort options k,
      (.pass n, .call (.plugin (.exportVolume volumeName blockPath portalIP portalPort options)) k) ∈ pool.threads →
      (∀ u ∈ pool.world.shown n, u = uid) →
      VolumeIdentity.nqn volumeName = VolumeIdentity.nqn i.externalID ∧
      (Kernel.exportVolume volumeName blockPath portalIP portalPort options).Ends (fun r =>
        ∀ nqn, r = .ok nqn → nqn = VolumeIdentity.nqn i.externalID) ∧
      (Spdk.exportVolume volumeName blockPath portalIP portalPort options).Ends (fun r =>
        ∀ nqn, r = .ok nqn → nqn = VolumeIdentity.nqn i.externalID)) ∧
    (∀ n nqn k, (.pass n, .call (.plugin (.unexportVolume nqn)) k) ∈ pool.threads →
      (∀ u ∈ pool.world.shown n, u = uid) → nqn = VolumeIdentity.nqn i.externalID) ∧
    (∀ n polls req resp, (.create n polls req, .ret (.create (.ok resp))) ∈ pool.threads →
      ∃ p, pool.world.lastRead n = some p ∧ (p.metadata.uid = uid →
        resp.volumeContext.lookup (str "nqn") = some (VolumeIdentity.nqn i.externalID) ∧
        unstageNQN resp.volumeID = .ok (VolumeIdentity.nqn i.externalID))) ∧
    (∀ (s' : Setting) (pool' : Pool Call Call.Resp World Job Creation.Result) (p p' : NVMePartition)
      (i' : VolumeIdentity.Identity), ((machine s').guarded steady).system.Reachable pool' →
      some p ∈ pool.world.partition.versions → p.metadata.uid = uid → some p' ∈ pool'.world.partition.versions →
      VolumeIdentity.new s'.key.ns s'.key.name p'.metadata.uid = .ok i' →
      (p.metadata.uid = p'.metadata.uid → p.key = p'.key) → (p.key, p.metadata.uid) ≠ (p'.key, p'.metadata.uid) →
      ((sha256 p.metadata.uid).take 16 = (sha256 p'.metadata.uid).take 16 → p.metadata.uid = p'.metadata.uid) →
      p.status.nqn ≠ [] → p.status.nqn ≠ p'.status.nqn) := by
  have hkept := kept h
  have hinv : Inv s pool.world := hkept.inv
  refine ⟨fun p hp huid => ?_, ?_, ?_, ?_, ?_⟩
  · have hown := (hinv p hp).own i (huid ▸ hid)
    exact ⟨hown.nqn, fun he => hown.nqn.resolve_left ((hinv p hp).exported he)⟩
  · intro n volumeName blockPath portalIP portalPort options k ht hall
    obtain ⟨m, hm, u, hu, htarget⟩ := hkept.req ht
    cases hm
    have hname := htarget i (hall u hu ▸ hid)
    rw [← hname]
    exact ⟨rfl, kernel_exportVolume_ends volumeName blockPath portalIP portalPort options,
      Lifecycle.exportVolume_ends volumeName blockPath portalIP portalPort options⟩
  · intro n nqn k ht hall
    obtain ⟨m, hm, u, hu, htarget⟩ := hkept.req ht
    cases hm
    exact htarget i (hall u hu ▸ hid)
  · intro n polls req resp ht
    obtain ⟨p, hlast, hleads⟩ : LeadsTo s n resp pool.world := hkept.post ht
    exact ⟨p, hlast, fun huid => hleads i (huid ▸ hid)⟩
  · intro s' pool' p p' i' h' hp huid hp' hid' hunique hdiff hsha hset heq
    have hinv' : Inv s' pool'.world := (kept h').inv
    have hne : p.metadata.uid ≠ p'.metadata.uid := fun hsame => hdiff (Prod.ext (hunique hsame) hsame)
    have hnqn := ((hinv p hp).own i (huid ▸ hid)).nqn.resolve_left hset
    have hnqn' := ((hinv' p' hp').own i' hid').nqn.resolve_left (heq ▸ hset)
    exact nqn_ne (huid ▸ hid : Identifies s p.metadata.uid i) hid' hne hsha (hnqn.symm.trans (heq.trans hnqn'))

end

/-! ### Runs -/

section runs

attribute [local instance] asciiLib

open Creation (sampleSetting sampleWorld initial_sampleWorld sampleRequest)

/-- With the name under which a backend exports. -/
def replies : (c : Call) → Option c.Resp
  | .plugin (.exportVolume volumeName _ _ _ _) => some (.ok (VolumeIdentity.nqn volumeName))
  | c => Manager.sampleReplies c

/-- The `i`-th job makes `n` calls, with fresh reads. -/
def serve (i n : ℕ) (uid : String) : List (Act Job Choice) :=
  Act.serve { uid := str uid, skip := 99, reply := replies } i n

/-- A call asks for its partition, and the manager places it. -/
def asking (n : ℕ) (uid : String) : List (Act Job Choice) :=
  .start (.create n 1 (sampleRequest 4194304)) :: serve 0 1 uid ++ [.env { change := .write (Manager.samplePlaced uid) }]

/-- A pass provisions and exports the partition. -/
def exporting (n : ℕ) : List (Act Job Choice) := .start (.pass n) :: serve 0 31 "" ++ [.drop 0]

/-- A call has answered about the partition with the UID, with a target and a volume ID that leads to one, which
pass the test. -/
def answered (uid : Str) (test : Str → Str → Bool) (pool : Pool Call Call.Resp World Job Creation.Result) : Bool :=
  pool.threads.any fun t =>
    match t with
    | (.create n _ _, .ret (.create (.ok resp))) =>
      match pool.world.lastRead n, resp.volumeContext.lookup (str "nqn"), unstageNQN resp.volumeID with
      | some p, some nqn, .ok nqn' => p.metadata.uid = uid && test nqn nqn'
      | _, _, _ => false
    | _ => false

theorem exists_of_answered {uid : Str} {test : Str → Str → Bool} (h : answered uid test pool = true) :
    ∃ n polls req resp p nqn nqn', (.create n polls req, .ret (.create (.ok resp))) ∈ pool.threads ∧
      pool.world.lastRead n = some p ∧ p.metadata.uid = uid ∧ resp.volumeContext.lookup (str "nqn") = some nqn ∧
      unstageNQN resp.volumeID = .ok nqn' ∧ test nqn nqn' = true := by
  obtain ⟨t, ht, htest⟩ := List.any_eq_true.1 h
  split at htest
  · split at htest
    · rename_i hlast hlookup hunstage
      simp only [Bool.and_eq_true, decide_eq_true_eq] at htest
      exact ⟨_, _, _, _, _, _, _, ht, hlast, htest.1, hlookup, hunstage, htest.2⟩
    · cases htest
  · cases htest

/-- A call is answered without anybody in its way. -/
theorem one_target_exported : ∃ pool, ((machine sampleSetting).guarded steady).system.Reachable pool ∧
    ∃ i, VolumeIdentity.new "ns" "vol" "u1" = .ok i ∧ ∃ n polls req resp,
      (.create n polls req, .ret (.create (.ok resp))) ∈ pool.threads ∧
      resp.volumeContext.lookup (str "nqn") = some (VolumeIdentity.nqn i.externalID) ∧
      unstageNQN resp.volumeID = .ok (VolumeIdentity.nqn i.externalID) := by
  obtain ⟨pool, hpool, hp⟩ := Machine.exists_reachable (M := (machine sampleSetting).guarded steady)
    (asking 1 "u1" ++ exporting 0 ++ serve 0 3 "") sampleWorld (answered (str "u1") fun _ _ => true)
    (show (Creation.machine sampleSetting).init sampleWorld from initial_sampleWorld) (by decide +kernel)
  obtain ⟨n, polls, req, resp, p, -, -, ht, hlast, huid, -⟩ := exists_of_answered hp
  obtain ⟨i, hid⟩ : ∃ i, VolumeIdentity.new "ns" "vol" "u1" = .ok i :=
    VolumeIdentity.exists_new (by decide) (by decide) (by decide)
  obtain ⟨-, -, -, hanswers, -⟩ := one_target hpool hid
  obtain ⟨p', hlast', hleads⟩ := hanswers n polls req resp ht
  obtain rfl : p' = p := Option.some.inj (hlast'.symm.trans hlast)
  obtain ⟨hcontext, hunstage⟩ := hleads huid
  exact ⟨pool, hpool, i, hid, n, polls, req, resp, ht, hcontext, hunstage⟩

/-- **Two targets.**  An agent has recorded the identity of a partition and was restarted before it added the finalizer.
While a pass works on that partition, it is deleted, and another one is created and placed under its name; the pass
exports the old target and records it there, so that the answer about the new partition names the old target, and
its volume ID leads to another.  And a call that has waited for its partition answers, without a target, about
another one that took its place before the last read. -/
theorem two_targets : (∃ pool, (machine sampleSetting).system.Reachable pool ∧ ∃ n polls req resp nqn nqn',
      (.create n polls req, .ret (.create (.ok resp))) ∈ pool.threads ∧
      resp.volumeContext.lookup (str "nqn") = some nqn ∧ unstageNQN resp.volumeID = .ok nqn' ∧ nqn ≠ [] ∧ nqn ≠ nqn') ∧
    ∃ pool, (machine sampleSetting).system.Reachable pool ∧ ∃ n polls req resp nqn',
      (.create n polls req, .ret (.create (.ok resp))) ∈ pool.threads ∧
      resp.volumeContext.lookup (str "nqn") = some [] ∧ unstageNQN resp.volumeID = .ok nqn' ∧ nqn' ≠ [] := by
  refine ⟨?_, ?_⟩
  · obtain ⟨pool, hpool, hp⟩ := Machine.exists_reachable (M := machine sampleSetting)
      (List.flatten [asking 1 "u1", [.start (.pass 0)], serve 0 7 "", [.drop 0, .drop 0, .start (.pass 1)],
        serve 0 1 "", [.env { change := .delete }], asking 2 "u2", serve 1 28 "", serve 0 3 ""]) sampleWorld
      (answered (str "u2") fun nqn nqn' => nqn ≠ [] ∧ nqn ≠ nqn')
      (show (Creation.machine sampleSetting).init sampleWorld from initial_sampleWorld) (by decide +kernel)
    obtain ⟨n, polls, req, resp, -, nqn, nqn', ht, -, -, hlookup, hunstage, htest⟩ := exists_of_answered hp
    exact ⟨pool, hpool, n, polls, req, resp, nqn, nqn', ht, hlookup, hunstage, of_decide_eq_true htest⟩
  · obtain ⟨pool, hpool, hp⟩ := Machine.exists_reachable (M := machine sampleSetting)
      (List.flatten [asking 1 "u1", exporting 0, serve 0 2 "", [.env { change := .delete }, .start (.pass 1)],
        serve 0 7 "", [.drop 0], asking 2 "u2", serve 1 1 ""]) sampleWorld
      (answered (str "u2") fun nqn nqn' => nqn = [] ∧ nqn' ≠ [])
      (show (Creation.machine sampleSetting).init sampleWorld from initial_sampleWorld) (by decide +kernel)
    obtain ⟨n, polls, req, resp, -, nqn, nqn', ht, -, -, hlookup, hunstage, htest⟩ := exists_of_answered hp
    obtain ⟨rfl, hne⟩ := of_decide_eq_true htest
    exact ⟨pool, hpool, n, polls, req, resp, nqn', ht, hlookup, hunstage, hne⟩

end runs

end Distort.Naming
