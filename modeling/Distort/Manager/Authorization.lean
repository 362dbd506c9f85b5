import Distort.Api.Admission
import Distort.Lib.Machine
import Distort.Lib.Store
import Distort.Manager.Placement

/-!
What the authorization of a placement says about who wrote it.

Any number of `reserveCandidate` runs, one at a time for each partition, and other clients that write
specs the server admits.  Devices, claims and nodes may change at any time, so what a run is told about
them is left open.

* `authorized_iff_own` — if no other client writes the spec between the read and the status patch of a
  run, and none sets a placement that the status happens to authorize, then a placed partition is
  authorized exactly if the last change of its spec was the update of a run;
* `authorization_misled` — a run in which each half fails.

The log keeps who changed the spec of which partition, newest first.
-/

namespace Distort.Manager.Authorization

open Go Lib Lib.Kube Api Proc

/-! ### The state -/

inductive Writer where
  | manager | other
  deriving DecidableEq

/-- A partition as it is stored. -/
abbrev Stored := Object Manifest NVMePartitionStatus

structure World where
  partitions : Store Manifest NVMePartitionStatus
  log : List (Key × Writer)

/-- Who changed the spec of a partition last. -/
def lastWriter (key : Key) (log : List (Key × Writer)) : Option Writer :=
  (log.find? fun e => e.1 = key).map (·.2)

variable [Quantity]

/-- A stored partition as clients see it. -/
def view (o : Stored) : NVMePartition := { metadata := o.metadata, spec := o.spec.decode, status := o.status }

/-- A partition as clients write it, with the defaults filled in.  The size that they have read is the stored one: an
update is refused before if it is based on another version. -/
def World.raw (w : World) (p : NVMePartition) : Stored where
  metadata := p.metadata
  spec := (Manifest.encode ((w.partitions.find p.key).bind (·.spec.size)) p.spec).withDefaults
  status := p.status

/-- What others do: create a partition, or write its spec. -/
inductive Change where
  | create (uid : Str) (key : Key) (spec : Manifest)
  | write (key : Key) (spec : Manifest)

structure Choice where
  fate : Fate := .ok
  device : Except Err NVMeDevice := .error notFound
  claim : Except Err NVMeDeviceClaim := .error notFound
  node : Except Err RDMAStorageNode := .error notFound
  time : ℤ := 0
  change : Change := .write ⟨[], []⟩ { size := none }

namespace World

/-- An update; it is noted if the spec has changed. -/
def update (by_ : Writer) (o : Stored) (w : World) : Except Err NVMePartition × World :=
  let r := w.partitions.update (fun old new => accepts (some old) new) o
  let changed := match w.partitions.find o.key, r.1 with
    | some old, .ok new => decide (new.spec ≠ old.spec)
    | _, _ => false
  (r.1.map view, ⟨r.2, if changed then (o.key, by_) :: w.log else w.log⟩)

def patchStatus (base obj : NVMePartition) (w : World) : Except Err NVMePartition × World :=
  let r := w.partitions.patchStatus NVMePartitionStatus.merge (w.raw base) (w.raw obj)
  (r.1.map view, { w with partitions := r.2 })

/-- The partition under the name gets another spec, whatever its version. -/
def rewrite (key : Key) (spec : Manifest) (w : World) : Option World :=
  (w.partitions.find key).map fun o => (w.update .other { o with spec := spec.withDefaults }).2

def change (w : World) : Change → Option World
  | .create uid key spec =>
    if uid ≠ [] ∧ w.partitions.find key = none ∧ accepts none spec.withDefaults then
      some { w with partitions := (w.partitions.create uid ({} : NVMePartitionStatus)
        { metadata := { ns := key.ns, name := key.name }, spec := spec.withDefaults, status := {} }).2 }
    else none
  | .write key spec => w.rewrite key spec

end World

/-! ### The system -/

/-- A run of `reserveCandidate`. -/
structure Job where
  key : Key
  candidate : PlacementCandidate
  requestedBytes : ℤ

def answer (ch : Choice) : (c : Call) → World → Option (c.Resp × World)
  | .api (.get .partition _ key), w => ch.fate.answerAny w ((found (w.partitions.find key)).map view, w)
  | .api (.list .partition _), w => ch.fate.answerAny w (.ok (w.partitions.objects.map view), w)
  | .api (.get .device _ _), w => some (ch.device, w)
  | .api (.get .claim _ _), w => some (ch.claim, w)
  | .api (.get .node _ _), w => some (ch.node, w)
  | .api (.patchStatus .partition base obj), w => ch.fate.answerAny w (w.patchStatus base obj)
  | .api (.update .partition obj), w => ch.fate.answerAny w (w.update .manager (w.raw obj))
  | .proc .now, w => some (ch.time, w)
  | .proc (.lock _), w => some ((), w)
  | .proc (.unlock _), w => some ((), w)
  | _, _ => none

omit [Quantity] in
def initial (w : World) : Prop := w.partitions.objects = [] ∧ w.log = []

/-- **The system of the partitions, the manager and other clients.** -/
def machine [StdLib] : Machine Call Call.Resp World Job Choice (Except Err Bool) where
  body j := reserveCandidate .api j.key j.candidate j.requestedBytes
  answer ch _ := answer ch
  change ch w := w.change ch.change
  init := initial
  together i j := i.key ≠ j.key

omit [Quantity] in
/-- Nobody has written the spec since the run read it, when its status patch arrives. -/
def sameGeneration (_ : Job) (c : Call) (w : World) : Bool :=
  match c with
  | .api (.patchStatus .partition base _) =>
    (w.partitions.find base.key).all fun o => o.metadata.generation = base.metadata.generation
  | _ => true

/-- Nobody else sets, on a partition that is not placed, the placement that its status authorizes for
the next generation. -/
def noForgery (ch : Choice) (w : World) : Bool :=
  match ch.change with
  | .write key spec => (w.partitions.find key).all fun o =>
    !((view o).spec.nodeName = [] &&
      PlacementAuth.isAuthorized (view { o with
        metadata := { o.metadata with generation := o.metadata.generation + 1 }, spec := spec.withDefaults }))
  | _ => true

/-! ### The invariant -/

/-- The generation that the authorization in the status is for. -/
def authorizedGeneration (o : Stored) : Option ℤ :=
  (findStatusCondition o.status.conditions PlacementAuth.conditionType).map (·.observedGeneration)

structure Inv (w : World) : Prop where
  ok : w.partitions.Ok
  live : ∀ o ∈ w.partitions.objects, o.metadata.deletionTimestamp = false
  uid : ∀ o ∈ w.partitions.objects, o.metadata.uid ≠ []
  logged : ∀ e ∈ w.log, ∃ o ∈ w.partitions.objects, o.key = e.1
  /-- The status is never ahead, except for the next generation of a partition that is not placed. -/
  bound : ∀ o ∈ w.partitions.objects, ∀ g, authorizedGeneration o = some g →
    g ≤ o.metadata.generation + if (view o).spec.nodeName = [] then 1 else 0
  own : ∀ o ∈ w.partitions.objects,
    PlacementAuth.isAuthorized (view o) = true ↔ lastWriter o.key w.log = some .manager

variable {w w' : World}

omit [Quantity] in
theorem fingerprint_eq_nil {uid node serial : Str} {ref : Option ClaimRef} (h : node = []) :
    PlacementAuth.fingerprint uid node serial ref = [] := by
  cases ref <;> simp [PlacementAuth.fingerprint, h]

variable {p : NVMePartition}

omit [Quantity] in
theorem not_authorized_of_unplaced (h : p.spec.nodeName = []) : PlacementAuth.isAuthorized p = false := by
  rw [Bool.eq_false_iff]
  intro ha
  obtain ⟨c, -, -, -, hf, hne⟩ := PlacementAuth.isAuthorized_iff.1 ha
  rw [fingerprint_eq_nil h] at hf
  exact hne hf

theorem not_authorized_of_lt {o : Stored} (h : ∀ g, authorizedGeneration o = some g → g < o.metadata.generation) :
    PlacementAuth.isAuthorized (view o) = false := by
  rw [Bool.eq_false_iff]
  intro ha
  obtain ⟨c, hc, -, hg, -⟩ := PlacementAuth.isAuthorized_iff.1 ha
  have hlt := h c.observedGeneration (congrArg (Option.map Condition.observedGeneration) hc)
  have heq : c.observedGeneration = o.metadata.generation := hg
  omega

variable {log : List (Key × Writer)}

omit [Quantity] in
theorem lastWriter_cons_of_ne {key key' : Key} {by_ : Writer} (h : key' ≠ key) :
    lastWriter key ((key', by_) :: log) = lastWriter key log := by
  simp [lastWriter, h]

omit [Quantity] in
@[simp] theorem lastWriter_cons_self (key : Key) (by_ : Writer) (log : List (Key × Writer)) :
    lastWriter key ((key, by_) :: log) = some by_ := by
  simp [lastWriter]

theorem Inv.put (h : Inv w) {o o' : Stored} (ho : o ∈ w.partitions.objects)
    (hkey : o'.key = o.key) (hversion : o'.metadata.resourceVersion = w.partitions.version + 1)
    (hlive : o'.metadata.deletionTimestamp = false) (huid : o'.metadata.uid ≠ [])
    (hbound : ∀ g, authorizedGeneration o' = some g →
      g ≤ o'.metadata.generation + if (view o').spec.nodeName = [] then 1 else 0)
    (hlog : log = w.log ∨ ∃ by_, log = (o.key, by_) :: w.log)
    (hown : PlacementAuth.isAuthorized (view o') = true ↔ lastWriter o.key log = some .manager) :
    Inv ⟨w.partitions.put o.key (some o'), log⟩ := by
  have hmem : ∀ x ∈ (w.partitions.put o.key (some o')).objects,
      x ∈ w.partitions.objects ∧ x.key ≠ o.key ∨ x = o' := by
    intro x hx
    rcases Store.mem_put.1 hx with hold | ⟨hnew, -⟩
    · exact .inl hold
    · exact .inr (Option.some.inj hnew).symm
  have hthere : ∀ x ∈ w.partitions.objects, ∃ y ∈ (w.partitions.put o.key (some o')).objects, y.key = x.key := by
    intro x hx
    by_cases hk : x.key = o.key
    · exact ⟨o', Store.mem_put.2 (.inr ⟨rfl, o, ho, rfl⟩), hkey.trans hk.symm⟩
    · exact ⟨x, Store.mem_put.2 (.inl ⟨hx, hk⟩), rfl⟩
  refine ⟨h.ok.put (by rintro x ⟨⟩; exact ⟨hkey, hversion⟩), ?_, ?_, ?_, ?_, ?_⟩
  · intro x hx
    rcases hmem x hx with ⟨hold, -⟩ | rfl
    · exact h.live x hold
    · exact hlive
  · intro x hx
    rcases hmem x hx with ⟨hold, -⟩ | rfl
    · exact h.uid x hold
    · exact huid
  · intro e he
    have : (∃ x ∈ w.partitions.objects, x.key = e.1) := by
      rcases hlog with rfl | ⟨by_, rfl⟩
      · exact h.logged e he
      rcases List.mem_cons.1 he with rfl | he
      · exact ⟨o, ho, rfl⟩
      · exact h.logged e he
    obtain ⟨x, hx, hxk⟩ := this
    obtain ⟨y, hy, hyk⟩ := hthere x hx
    exact ⟨y, hy, hyk.trans hxk⟩
  · intro x hx
    rcases hmem x hx with ⟨hold, -⟩ | rfl
    · exact h.bound x hold
    · exact hbound
  · intro x hx
    rcases hmem x hx with ⟨hold, hk⟩ | rfl
    · rcases hlog with rfl | ⟨by_, rfl⟩
      · exact h.own x hold
      · rw [h.own x hold, lastWriter_cons_of_ne (Ne.symm hk)]
    · rw [hkey]
      exact hown

/-! ### Steps -/

/-- What an update can do: nothing, or the stored partition of the same version gets the new spec. -/
theorem update_cases (hi : Inv w) (by_ : Writer) (o : Stored) : (∃ err, w.update by_ o = (.error err, w)) ∨
    ∃ stored ∈ w.partitions.objects, stored.key = o.key ∧
      o.metadata.resourceVersion = stored.metadata.resourceVersion ∧ accepts (some stored.spec) o.spec = true ∧
      w.update by_ o = (.ok (view (w.partitions.updated stored o)),
        ⟨w.partitions.put stored.key (some (w.partitions.updated stored o)),
          if o.spec ≠ stored.spec then (stored.key, by_) :: w.log else w.log⟩) := by
  unfold World.update
  rcases Store.update_cases (s := w.partitions) (o := o) (fun old new => accepts (some old) new) with
    ⟨err, heq⟩ | ⟨stored, hf, hv, ha, heq⟩
  · refine .inl ⟨err, ?_⟩
    rw [heq]
    cases w.partitions.find o.key <;> rfl
  · obtain ⟨hs, hk⟩ := Store.mem_of_find hf
    refine .inr ⟨stored, hs, hk, hv, ha, ?_⟩
    have hsettle : (w.partitions.updated stored o).settle = some (w.partitions.updated stored o) :=
      settle_of_not_deleting (hi.live stored hs)
    rw [heq, hsettle, hf, hk]
    by_cases hspec : o.spec = stored.spec <;> simp [Except.map, Store.updated, hspec]

variable {key : Key}

theorem Inv.rewrite (h : Inv w) {spec : Manifest} (hw : w.rewrite key spec = some w')
    (hforge : noForgery { change := .write key spec } w = true) : Inv w' := by
  obtain ⟨o, hf, rfl⟩ := Option.map_eq_some_iff.1 hw
  obtain ⟨ho, hk⟩ := Store.mem_of_find hf
  rcases update_cases h .other { o with spec := spec.withDefaults } with ⟨err, heq⟩ | ⟨stored, hs, hsk, -, -, heq⟩
  · rw [heq]
    exact h
  obtain rfl : stored = o := h.ok.eq_of_key hs ho hsk
  rw [heq]
  have hupdated : (w.partitions.updated stored { stored with spec := spec.withDefaults }).metadata.generation =
      if spec.withDefaults = stored.spec then stored.metadata.generation else stored.metadata.generation + 1 := rfl
  by_cases hsame : spec.withDefaults = stored.spec
  · -- nothing but the version changes
    have hstamp : w.partitions.updated stored { stored with spec := spec.withDefaults } = w.partitions.stamp stored := by
      simp [Store.updated, Store.stamp, hsame]
    rw [hstamp, if_neg (not_not.2 hsame)]
    exact h.put hs rfl rfl (h.live stored hs) (h.uid stored hs) (h.bound stored hs) (.inl rfl) (h.own stored hs)
  · simp only [hsame, ne_eq, not_false_eq_true, if_true]
    have hgen : (w.partitions.updated stored { stored with spec := spec.withDefaults }).metadata.generation =
        stored.metadata.generation + 1 := by rw [hupdated, if_neg hsame]
    have hb := h.bound stored hs
    refine h.put hs rfl rfl (h.live stored hs) (h.uid stored hs) (fun g hg => ?_) (.inr ⟨.other, rfl⟩) ?_
    · have hle := hb g hg
      rw [hgen]
      split at hle <;> split <;> omega
    · rw [lastWriter_cons_self]
      simp only [Option.some.injEq, reduceCtorEq, iff_false, Bool.not_eq_true]
      by_cases hplaced : (view stored).spec.nodeName = []
      · -- a placement set by somebody else is not the authorized one
        simp only [noForgery, hf, Option.all_some, hplaced, decide_true, Bool.true_and, Bool.not_eq_true'] at hforge
        simpa [PlacementAuth.isAuthorized, Store.updated, view, hsame] using hforge
      · refine not_authorized_of_lt fun g hg => ?_
        have hle := hb g hg
        rw [if_neg hplaced] at hle
        rw [hgen]
        omega

omit [Quantity] in
theorem lastWriter_eq_none (h : ∀ e ∈ log, e.1 ≠ key) : lastWriter key log = none := by
  simp only [lastWriter, Option.map_eq_none_iff, List.find?_eq_none]
  intro e he
  simpa using h e he

theorem Inv.create (h : Inv w) {uid : Str} {spec : Manifest}
    (hw : w.change (.create uid key spec) = some w') : Inv w' := by
  simp only [World.change, Option.ite_none_right_eq_some, Option.some.injEq] at hw
  obtain ⟨⟨huid, hf, -⟩, rfl⟩ := hw
  have hnew : ∀ e ∈ w.log, e.1 ≠ key := by
    intro e he hk
    obtain ⟨o, ho, hok⟩ := h.logged e he
    exact Store.not_mem_of_find hf ho (hok.trans hk)
  have hkey : Object.key (σ := Manifest) (τ := NVMePartitionStatus)
      { metadata := { ns := key.ns, name := key.name }, spec := spec.withDefaults, status := {} } = key := rfl
  simp only [Store.create, hkey, hf]
  refine ⟨h.ok.add hf rfl, ?_, ?_, ?_, ?_, ?_⟩
  · intro o ho
    rcases List.mem_append.1 ho with hold | hnew
    · exact h.live o hold
    · obtain rfl := List.mem_singleton.1 hnew
      rfl
  · intro o ho
    rcases List.mem_append.1 ho with hold | hnew
    · exact h.uid o hold
    · obtain rfl := List.mem_singleton.1 hnew
      exact huid
  · intro e he
    obtain ⟨o, ho, hok⟩ := h.logged e he
    exact ⟨o, List.mem_append_left _ ho, hok⟩
  · intro o ho
    rcases List.mem_append.1 ho with hold | hnew
    · exact h.bound o hold
    obtain rfl := List.mem_singleton.1 hnew
    intro g hg
    cases hg
  · intro o ho
    rcases List.mem_append.1 ho with hold | hnew'
    · exact h.own o hold
    obtain rfl := List.mem_singleton.1 hnew'
    have hnone : lastWriter key w.log = none := lastWriter_eq_none hnew
    constructor
    · intro ha
      obtain ⟨c, hc, -⟩ := PlacementAuth.isAuthorized_iff.1 ha
      cases hc
    · intro hl
      exact absurd (hnone.symm.trans hl) (by simp)

/-! ### What a run counts on -/

/-- What others may do to the partition of a run: the spec changes only with the generation, and the
status stays. -/
structure Tracks (key : Key) (w w' : World) : Prop where
  evolves : w.partitions.Evolves w'.partitions
  partition : ∀ o ∈ w.partitions.objects, o.key = key → ∃ o' ∈ w'.partitions.objects, o'.key = key ∧
    o'.metadata.uid = o.metadata.uid ∧ o'.status = o.status ∧ o.metadata.generation ≤ o'.metadata.generation ∧
    (o'.metadata.generation = o.metadata.generation → o'.spec = o.spec)

/-- What a run does: it leaves the other partitions alone. -/
structure Leaves (key : Key) (w w' : World) : Prop where
  evolves : w.partitions.Evolves w'.partitions
  others : ∀ o ∈ w.partitions.objects, o.key ≠ key → o ∈ w'.partitions.objects

section

omit [Quantity]

theorem Tracks.refl (key : Key) (w : World) : Tracks key w w :=
  ⟨.refl _, fun o ho hk => ⟨o, ho, hk, rfl, rfl, le_rfl, fun _ => rfl⟩⟩

theorem Tracks.trans {a b c : World} (h : Tracks key a b) (h' : Tracks key b c) : Tracks key a c := by
  refine ⟨h.evolves.trans h'.evolves, fun o ho hk => ?_⟩
  obtain ⟨x, hx, hxk, hxu, hxs, hxg, hxe⟩ := h.partition o ho hk
  obtain ⟨y, hy, hyk, hyu, hys, hyg, hye⟩ := h'.partition x hx hxk
  refine ⟨y, hy, hyk, hyu.trans hxu, hys.trans hxs, hxg.trans hyg, fun heq => ?_⟩
  -- no change of the spec on the way if there is none in the end
  have hxg' : x.metadata.generation = o.metadata.generation := by omega
  rw [hye (by omega), hxe hxg']

theorem Leaves.tracks {key key' : Key} (h : Leaves key w w') (hne : key ≠ key') : Tracks key' w w' := by
  refine ⟨h.evolves, fun o ho hk => ?_⟩
  refine ⟨o, h.others o ho ?_, hk, rfl, rfl, le_rfl, fun _ => rfl⟩
  rw [hk]
  exact hne.symm

theorem Leaves.refl (key : Key) (w : World) : Leaves key w w := ⟨.refl _, fun _ ho _ => ho⟩

theorem leaves_put {o' : Stored} (hv : o'.metadata.resourceVersion = w.partitions.version + 1) :
    Leaves key w ⟨w.partitions.put key (some o'), log⟩ := by
  refine ⟨Store.evolves_put (by rintro x ⟨⟩; exact hv), fun o ho hk => ?_⟩
  exact Store.mem_put.2 (.inl ⟨ho, hk⟩)

end

theorem tracks_change (h : Inv w) {ch : Change} (hw : w.change ch = some w') (key : Key) : Tracks key w w' := by
  cases ch with
  | create uid key' spec =>
    simp only [World.change, Option.ite_none_right_eq_some, Option.some.injEq] at hw
    obtain ⟨⟨-, hf, -⟩, rfl⟩ := hw
    have hkey : Object.key (σ := Manifest) (τ := NVMePartitionStatus)
        { metadata := { ns := key'.ns, name := key'.name }, spec := spec.withDefaults, status := {} } = key' := rfl
    simp only [Store.create, hkey, hf]
    refine ⟨Store.evolves_add rfl, fun o ho hk => ?_⟩
    exact ⟨o, List.mem_append_left _ ho, hk, rfl, rfl, le_rfl, fun _ => rfl⟩
  | write key' spec =>
    obtain ⟨o, hf, rfl⟩ := Option.map_eq_some_iff.1 hw
    obtain ⟨ho, hok⟩ := Store.mem_of_find hf
    rcases update_cases h .other { o with spec := spec.withDefaults } with ⟨err, heq⟩ | ⟨stored, hs, hsk, -, -, heq⟩
    · rw [heq]
      exact .refl key w
    obtain rfl : stored = o := h.ok.eq_of_key hs ho hsk
    rw [heq]
    refine ⟨Store.evolves_put (by rintro x ⟨⟩; rfl), fun x hx hk => ?_⟩
    by_cases hxk : x.key = stored.key
    · -- the partition that was written
      obtain rfl : x = stored := h.ok.eq_of_key hx hs hxk
      refine ⟨_, Store.mem_put.2 (.inr ⟨rfl, x, hx, rfl⟩), hk, rfl, rfl, ?_, ?_⟩
      · simp only [Store.updated]
        split <;> omega
      · simp only [Store.updated]
        split
        · rename_i hsame
          exact fun _ => hsame
        · intro hg
          omega
    · exact ⟨x, Store.mem_put.2 (.inl ⟨hx, hxk⟩), hk, rfl, rfl, le_rfl, fun _ => rfl⟩

/-! ### What a run knows -/

/-- The partition that was read is still there: its status is the same, and its spec too unless the
generation has moved on. -/
def Read (key : Key) (p : NVMePartition) (w : World) : Prop :=
  ∃ o₀, p = view o₀ ∧ o₀.key = key ∧ ∃ o ∈ w.partitions.objects, o.key = key ∧ o.metadata.uid = o₀.metadata.uid ∧
    o.status = o₀.status ∧ o₀.metadata.generation ≤ o.metadata.generation ∧
    (o.metadata.generation = o₀.metadata.generation → o.spec = o₀.spec)

theorem Read.tracks (h : Read key p w) (ht : Tracks key w w') : Read key p w' := by
  obtain ⟨o0, rfl, hk0, o, ho, hk, hu, hs, hg, he⟩ := h
  obtain ⟨x, hx, hxk, hxu, hxs, hxg, hxe⟩ := ht.partition o ho hk
  refine ⟨o0, rfl, hk0, x, hx, hxk, hxu.trans hu, hxs.trans hs, hg.trans hxg, fun heq => ?_⟩
  rw [hxe (by omega), he (by omega)]

theorem read_of_find {o : Stored} (hf : w.partitions.find key = some o) : Read key (view o) w := by
  obtain ⟨ho, hk⟩ := Store.mem_of_find hf
  exact ⟨o, rfl, hk, o, ho, hk, rfl, rfl, le_rfl, fun _ => rfl⟩

/-- The answer to the status patch: the partition is not placed, and its status authorizes the
selection for the next generation. -/
def Armed (device : NVMeDevice) (ref : ClaimRef) (p : NVMePartition) (w : World) : Prop :=
  ∃ o, p = view o ∧ Store.Pins o w.partitions ∧ p.spec.nodeName = [] ∧ p.metadata.uid ≠ [] ∧
    p.status.placementFingerprint =
      PlacementAuth.fingerprint p.metadata.uid device.spec.nodeName device.spec.serialNumber (some ref) ∧
    ∃ c, findStatusCondition p.status.conditions PlacementAuth.conditionType = some c ∧ c.status = .true ∧
      c.observedGeneration = p.metadata.generation + 1

variable {device : NVMeDevice}

theorem Armed.tracks {ref : ClaimRef} (h : Armed device ref p w) (ht : Tracks key w w') : Armed device ref p w' := by
  obtain ⟨o, hp, hpins, hrest⟩ := h
  exact ⟨o, hp, hpins.evolves ht.evolves, hrest⟩

/-! ### The two writes -/

/-- The status that a run authorizes the selection with. -/
def authorizedStatus (p : NVMePartition) (device : NVMeDevice) (ref : ClaimRef) : NVMePartitionStatus :=
  (withAuthorization (withPlacement p device ref)).status

omit [Quantity] in
theorem find_authorizedStatus (p : NVMePartition) (device : NVMeDevice) (ref : ClaimRef) :
    ∃ c, findStatusCondition (authorizedStatus p device ref).conditions PlacementAuth.conditionType = some c ∧
      c.status = .true ∧ c.observedGeneration = p.metadata.generation + 1 :=
  ⟨_, findStatusCondition_set_self _ _, rfl, rfl⟩

/-- What the status patch of a run does: nobody else writes the status, so it is the computed one. -/
theorem patchStatus_eq (h : Inv w) {o0 o : Stored} (device : NVMeDevice) (ref : ClaimRef)
    (hk0 : o0.key = key) (ho : o ∈ w.partitions.objects) (hk : o.key = key) (hstatus : o.status = o0.status) :
    w.patchStatus (withPlacement (view o0) device ref) (withAuthorization (withPlacement (view o0) device ref)) =
      (.ok (view (w.partitions.stamp { o with status := authorizedStatus (view o0) device ref })),
        ⟨w.partitions.put key (some (w.partitions.stamp
          { o with status := authorizedStatus (view o0) device ref })), w.log⟩) := by
  have hkey : (w.raw (withAuthorization (withPlacement (view o0) device ref))).key = key := hk0
  have hf : w.partitions.find key = some o := by rw [← hk]; exact h.ok.find_eq ho
  have hmerge : NVMePartitionStatus.merge (w.raw (withPlacement (view o0) device ref)).status
      (w.raw (withAuthorization (withPlacement (view o0) device ref))).status o.status =
      authorizedStatus (view o0) device ref := by
    rw [hstatus]
    exact NVMePartitionStatus.merge_base _ _
  unfold World.patchStatus
  rcases Store.patchStatus_cases (s := w.partitions) NVMePartitionStatus.merge
      (w.raw (withPlacement (view o0) device ref)) (w.raw (withAuthorization (withPlacement (view o0) device ref))) with
    ⟨hnone, -⟩ | ⟨stored, hf', heq⟩
  · rw [hkey, hf] at hnone
    cases hnone
  · obtain rfl : o = stored := Option.some.inj (hf.symm.trans (by rw [← hkey]; exact hf'))
    rw [heq, hmerge, hkey]
    rfl

theorem patch_served (h : Inv w) (device : NVMeDevice) (ref : ClaimRef) (hr : Read key p w) (hn : p.spec.nodeName = [])
    (hgen : ∀ o, w.partitions.find key = some o → o.metadata.generation = p.metadata.generation) :
    ∃ q w', w.patchStatus (withPlacement p device ref) (withAuthorization (withPlacement p device ref)) =
        (.ok q, w') ∧ Inv w' ∧ Leaves key w w' ∧ q.key = key ∧ Armed device ref q w' := by
  obtain ⟨o0, rfl, hk0, o, ho, hk, huid, hstatus, -, hspec⟩ := hr
  have hg : o.metadata.generation = o0.metadata.generation :=
    hgen o (by rw [← hk]; exact h.ok.find_eq ho)
  refine ⟨_, _, patchStatus_eq h device ref hk0 ho hk hstatus, ?_⟩
  obtain ⟨c, hc, hcs, hcg⟩ := find_authorizedStatus (view o0) device ref
  have hcg' : c.observedGeneration = o.metadata.generation + 1 := by
    rw [hg]
    exact hcg
  have hunplaced : (view (w.partitions.stamp
      { o with status := authorizedStatus (view o0) device ref })).spec.nodeName = [] := by
    have hsame := congrArg (fun m : Manifest => m.decode.nodeName) (hspec hg)
    exact hsame.trans hn
  have hinv : Inv ⟨w.partitions.put key (some (w.partitions.stamp
      { o with status := authorizedStatus (view o0) device ref })), w.log⟩ := by
    rw [← hk]
    refine h.put ho rfl rfl (h.live o ho) (h.uid o ho) (fun g hg' => ?_) (.inl rfl) ?_
    · obtain rfl : c.observedGeneration = g :=
        Option.some.inj ((congrArg (Option.map Condition.observedGeneration) hc).symm.trans hg')
      rw [if_pos hunplaced]
      exact hcg'.le
    · rw [not_authorized_of_unplaced hunplaced, ← h.own o ho]
      exact iff_of_false Bool.false_ne_true
        (Bool.eq_false_iff.1 (not_authorized_of_unplaced (p := view o) hunplaced))
  refine ⟨hinv, leaves_put rfl, hk, _, rfl, ?_, hunplaced, h.uid o ho, ?_, c, hc, hcs, hcg'⟩
  · exact hinv.ok.pins (Store.mem_put.2 (.inr ⟨rfl, o, ho, hk⟩))
  · exact (congrArg (fun u => PlacementAuth.fingerprint u device.spec.nodeName device.spec.serialNumber (some ref))
      huid).symm

theorem decode_raw (w : World) (p : NVMePartition) : (w.raw p).spec.decode.nodeName = p.spec.nodeName ∧
    (w.raw p).spec.decode.parentDeviceSerialNumber = p.spec.parentDeviceSerialNumber ∧
    (w.raw p).spec.decode.claimRef = p.spec.claimRef :=
  decode_encode_placement ((w.partitions.find p.key).bind (·.spec.size)) p.spec

/-- **The spec update of a run**: what it writes is authorized. -/
theorem update_served (h : Inv w) {ref : ClaimRef} (ha : Armed device ref p w) :
    Inv (w.update .manager (w.raw (withPlacement p device ref))).2 ∧
    Leaves p.key w (w.update .manager (w.raw (withPlacement p device ref))).2 := by
  obtain ⟨o, rfl, hpins, hn, huid, hfp, c, hc, hstatus, hgen⟩ := ha
  rcases update_cases h .manager (w.raw (withPlacement (view o) device ref)) with
    ⟨err, heq⟩ | ⟨stored, hs, hsk, hv, hacc, heq⟩
  · rw [heq]
    exact ⟨h, .refl _ w⟩
  -- the version is the one of the patch, so it is the partition that the patch left
  · obtain rfl : stored = o := hpins.2 stored hs hsk hv.symm
    rw [heq]
    obtain ⟨dnode, dserial, dref⟩ := decode_raw w (withPlacement (view stored) device ref)
    have hplaced := placement_of_accepts hacc
    have hclaim : (w.raw (withPlacement (view stored) device ref)).spec.claimRef =
        some ⟨some ref.ns, some ref.name, some ref.uid⟩ := rfl
    have hfull : device.spec.nodeName ≠ [] ∧ device.spec.serialNumber ≠ [] := by
      rcases hplaced with ⟨hn', hs', -⟩ | ⟨-, -, hnone⟩
      · exact ⟨omitEmpty_ne_none.1 hn', omitEmpty_ne_none.1 hs'⟩
      · rw [hclaim] at hnone
        cases hnone
    have hspec : (w.raw (withPlacement (view stored) device ref)).spec ≠ stored.spec := by
      intro hsame
      have hnode := congrArg (fun m : Manifest => m.decode.nodeName) hsame
      exact hfull.1 ((dnode.symm.trans hnode).trans hn)
    have hgen' : (w.partitions.updated stored (w.raw (withPlacement (view stored) device ref))).metadata.generation =
        stored.metadata.generation + 1 := by
      simp only [Store.updated, if_neg hspec]
    have hobs : c.observedGeneration = stored.metadata.generation + 1 := hgen
    rw [if_pos hspec]
    refine ⟨h.put hs rfl rfl (h.live stored hs) (h.uid stored hs) (fun g hg => ?_) (.inr ⟨_, rfl⟩) ?_, leaves_put rfl⟩
    · obtain rfl : c.observedGeneration = g := by
        have hfind : authorizedGeneration stored = some c.observedGeneration :=
          congrArg (Option.map Condition.observedGeneration) hc
        exact Option.some.inj (hfind.symm.trans hg)
      rw [hgen', hobs]
      split <;> omega
    · rw [lastWriter_cons_self, PlacementAuth.isAuthorized_iff]
      refine iff_of_true ⟨c, hc, hstatus, hobs.trans hgen'.symm, ?_, ?_⟩ rfl
      · show stored.status.placementFingerprint = PlacementAuth.fingerprint stored.metadata.uid
          (w.raw (withPlacement (view stored) device ref)).spec.decode.nodeName
          (w.raw (withPlacement (view stored) device ref)).spec.decode.parentDeviceSerialNumber
          (w.raw (withPlacement (view stored) device ref)).spec.decode.claimRef
        rw [dnode, dserial, dref]
        exact hfp
      · show stored.status.placementFingerprint ≠ []
        rw [show stored.status.placementFingerprint = _ from hfp]
        exact PlacementAuth.fingerprint_ne_nil huid hfull.1 hfull.2 (claimRef_of_accepts hacc hclaim)

/-! ### The calls of a run -/

section

variable [StdLib] {j : Job}

/-- The system with the two conditions. -/
abbrev conditioned : Machine Call Call.Resp World Job Choice (Except Err Bool) :=
  (machine.limited noForgery).guarded sameGeneration

def outline : Outline conditioned.system where
  Inv := Inv
  Rely j := Tracks j.key
  Guar j := Leaves j.key
  Req _ _ _ := True
  Post _ _ _ := True
  rely_refl j := .refl j.key
  rely_trans _ := .trans
  init := by
    rintro w ⟨hp, hl⟩
    exact ⟨⟨by simp [hp], by simp [hp]⟩, by simp [hp], by simp [hp], by simp [hl], by simp [hp], by simp [hp]⟩
  env := by
    intro w w' hi he
    obtain ⟨ch, hforge, hw⟩ := Machine.env_limited _ he
    have hw' : w.change ch.change = some w' := hw
    refine ⟨?_, fun j => tracks_change hi hw' j.key⟩
    cases hc : ch.change with
    | create uid key spec =>
      rw [hc] at hw'
      exact hi.create hw'
    | write key spec =>
      rw [hc] at hw'
      refine hi.rewrite hw' ?_
      simpa only [noForgery, hc] using hforge
  guar i j w w' htog _ _ hg := hg.tracks (by simpa [Machine.system, Machine.limited, Machine.guarded, machine] using htog)

omit [StdLib] in
/-- A call that writes nothing. -/
def reads : Call → Bool
  | .api (.get _ _ _) | .api (.list _ _) | .proc _ => true
  | _ => false

omit [StdLib] in
theorem eq_of_reads {ch : Choice} {c : Call} {r : c.Resp} (hc : reads c = true) (ha : answer ch c w = some (r, w')) :
    w' = w := by
  unfold answer at ha
  split at ha
  all_goals first
    | exact absurd hc Bool.false_ne_true
    | exact (Fate.answerWith_state ha).elim id id
    | (cases ha; rfl)
    | cases ha

omit [StdLib] [Quantity] in
theorem reads_of_asks (c : Call) (hc : asks .api c = true) : reads c = true := by
  unfold asks at hc
  split at hc <;> first | rfl | cases hc

theorem reading_safe {α : Type} {p : Proc α} {I : World → Prop} (hp : p.Only (reads ·)) (hw : I w)
    (hI : ∀ w1 w2, I w1 → Tracks j.key w1 w2 → I w2) : outline.Safe j (fun _ => I) p w := by
  refine .of_only hp hw hI (fun _ _ _ _ _ => trivial) fun c w1 r w2 hc hi hI1 hs => ?_
  obtain ⟨-, ch, ha⟩ := (Machine.sem_guarded _).1 hs
  obtain rfl := eq_of_reads hc ha
  exact ⟨hi, .refl _ _, hI1⟩

theorem getPartition_safe :
    outline.Safe j (fun r w' => ∀ p, r = .ok p → Read j.key p w') (get .partition .api j.key) w := by
  refine Outline.call (fun _ _ _ => trivial) (fun r w1 w2 h ht p hp => (h p hp).tracks ht) ?_
  intro ch w1 r w2 _ hi _ ha
  obtain rfl := eq_of_reads (c := .api (.get .partition .api j.key)) rfl ha
  refine ⟨hi, .refl _ _, ?_⟩
  rintro p rfl
  have heq := Fate.answerWith_ok ha
  cases hf : w2.partitions.find j.key with
  | none => simp [hf, found, Except.map] at heq
  | some o =>
    simp only [hf, found, Except.map, Prod.mk.injEq, Except.ok.injEq, and_true] at heq
    rw [← heq]
    exact read_of_find hf

theorem persistPlacement_safe {p : NVMePartition} {ref : ClaimRef} (hr : Read j.key p w) (hn : p.spec.nodeName = []) :
    outline.Complies j (persistPlacement p device ref) w := by
  have hkey : p.key = j.key := by
    obtain ⟨o, rfl, hk, -⟩ := hr
    exact hk
  unfold persistPlacement
  refine .next (Outline.call (Q := fun (r : Except Err NVMePartition) w' => ∀ q, r = .ok q → q.key = j.key ∧
    Armed device ref q w') (fun _ _ _ => trivial) (fun r w1 w2 h ht q hq => ⟨(h q hq).1, (h q hq).2.tracks ht⟩) ?_) fun q w1 h1 => ?_
  · intro ch w1 r w2 ht hi hg ha
    obtain ⟨q, w', hserved, hi', hl', hq, harmed⟩ :=
      patch_served hi device ref (hr.tracks ht) hn fun o ho => by
        have hbase : (withPlacement p device ref).key = j.key := hkey
        simp only [sameGeneration, hbase, ho, Option.all_some, decide_eq_true_eq] at hg
        exact hg
    have ha' : ch.fate.answerAny w1 (.ok q, w') = some (r, w2) := by
      rw [← hserved]
      exact ha
    refine ⟨?_, ?_, ?_⟩
    · rcases Fate.answerWith_state ha' with rfl | rfl
      · exact hi
      · exact hi'
    · rcases Fate.answerWith_state ha' with rfl | rfl
      · exact .refl _ _
      · exact hl'
    · rintro q' rfl
      obtain ⟨hqq, rfl⟩ := Prod.mk.inj (Fate.answerWith_ok ha')
      cases hqq
      exact ⟨hq, harmed⟩
  · obtain ⟨hqk, harmed⟩ := h1 q rfl
    refine .next (Outline.call (Q := fun _ _ => True) (fun _ _ _ => trivial) (fun _ _ _ _ _ => trivial) ?_) fun _ _ _ => .ended
    intro ch w2 r w3 ht hi _ ha
    obtain ⟨hi', hl'⟩ := update_served hi (harmed.tracks ht)
    rw [hqk] at hl'
    rcases Fate.answerWith_state ha with rfl | rfl
    · exact ⟨hi, .refl _ _, trivial⟩
    · exact ⟨hi', hl', trivial⟩

theorem reserveOnce_safe {candidate : PlacementCandidate} {requestedBytes : ℤ} :
    outline.Complies j (reserveOnce .api j.key candidate requestedBytes) w := by
  have hI : ∀ p w1 w2, Read j.key p w1 → Tracks j.key w1 w2 → Read j.key p w2 := fun _ _ _ h ht => h.tracks ht
  refine .andThen getPartition_safe (fun _ _ _ => ?_) fun p w1 h1 => ?_
  · split <;> exact .ended
  split
  · exact .ended
  rename_i hopen
  have hn : p.spec.nodeName = [] := not_not.1 fun h => hopen (.inl h)
  refine .andThen (reading_safe (only_op rfl) (h1 p rfl) (hI p)) (fun _ _ _ => ?_) fun device w2 h2 => ?_
  · split <;> exact .ended
  split
  · exact .ended
  refine .next (reading_safe (liveClaimOwnsDevice_only reads_of_asks device) h2 (hI p)) fun owned w3 h3 => ?_
  split
  · exact .ended
  refine .next (reading_safe (only_op rfl) h3 (hI p)) fun rdmaNode w4 h4 => ?_
  refine .bind ((reading_safe (only_op rfl) h4 (hI p)).conseq fun t w5 _ h5 => ?_)
  split
  · exact .ended
  refine .next (reading_safe (only_op rfl) h5 (hI p)) fun partitions w6 h6 => ?_
  split
  · exact .ended
  split
  · exact .ended
  split
  · exact .call (fun _ _ _ => trivial) fun _ r => r.elim
  · exact persistPlacement_safe h6 hn

theorem reserveCandidate_safe (j : Job) (w : World) : outline.Complies j
    (reserveCandidate .api j.key j.candidate j.requestedBytes) w := by
  have hproc : ∀ {c : ProcCall} {w}, outline.Complies j (.call (.proc c) .ret) w :=
    reading_safe (only_op rfl) trivial fun _ _ _ _ => trivial
  refine .bind (hproc.conseq fun _ w1 _ _ => ?_)
  refine .bind ((retryOnConflict_safe (I := fun _ => True) trivial (fun _ _ _ _ => trivial)
    (fun _ _ => reserveOnce_safe) _).conseq fun r w2 _ _ => ?_)
  exact .bind (hproc.conseq fun _ _ _ _ => .ended)

/-- **Authorized means placed by the manager.**  In every run in which no other client writes a spec
between the read and the status patch of a `reserveCandidate`, and none sets the placement that is being
authorized, a placed partition is authorized exactly if its last change was made by `reserveCandidate`. -/
theorem authorized_iff_own {c : Pool Call Call.Resp World Job (Except Err Bool)}
    (hc : ((machine.guarded sameGeneration).limited noForgery).system.Reachable c) :
    ∀ o ∈ c.world.partitions.objects, (view o).spec.nodeName ≠ [] →
      (PlacementAuth.isAuthorized (view o) = true ↔ lastWriter o.key c.world.log = some .manager) := by
  have hk : outline.Kept c := Outline.Kept.reachable (fun j _ w _ _ => reserveCandidate_safe j w) hc
  have hi : Inv c.world := hk.inv
  exact fun o ho _ => hi.own o ho

end

end Distort.Manager.Authorization

/-! ### Runs -/

namespace Distort.Manager.Authorization

open Go Lib Lib.Kube Api Proc

section

attribute [local instance] asciiLib plainQuantity

def emptyWorld : World := ⟨⟨[], 0⟩, []⟩

def sampleKey : Key := ⟨str "ns", str "vol"⟩

def sampleJob : Job := ⟨sampleKey, ⟨⟨[], str "d1"⟩, str "s1", 8388608⟩, 4194304⟩

/-- A partition is created, and a run makes its first `n` calls. -/
def reserving (n : ℕ) : List (Act Job Choice) :=
  [.env { change := .create (str "u1") sampleKey unplaced }, .start sampleJob] ++
    List.replicate n (.run 0 { device := .ok sampleDevice, claim := .ok sampleClaim, node := .ok sampleNode })

/-- A partition is placed, with the given answers of the last writer and of `IsAuthorized`. -/
def placed (writer : Writer) (authorized : Bool) (o : Stored) (log : List (Key × Writer)) : Bool :=
  (view o).spec.nodeName ≠ [] && lastWriter o.key log = some writer &&
    PlacementAuth.isAuthorized (view o) = authorized

theorem exists_of_placed {writer : Writer} {authorized : Bool} {w : World}
    (h : w.partitions.objects.any (fun o => placed writer authorized o w.log) = true) :
    ∃ o ∈ w.partitions.objects, (view o).spec.nodeName ≠ [] ∧ lastWriter o.key w.log = some writer ∧
      PlacementAuth.isAuthorized (view o) = authorized := by
  obtain ⟨o, ho, hp⟩ := List.any_eq_true.1 h
  simp only [placed, Bool.and_eq_true, decide_eq_true_eq] at hp
  exact ⟨o, ho, hp.1.1, hp.1.2, hp.2⟩

/-- A partition is placed by a run, and nobody interferes. -/
theorem authorized_iff_own_placed : ∃ c, ((machine.guarded sameGeneration).limited noForgery).system.Reachable c ∧
    ∃ o ∈ c.world.partitions.objects, (view o).spec.nodeName ≠ [] ∧ PlacementAuth.isAuthorized (view o) = true := by
  obtain ⟨c, hc, hp⟩ := Machine.exists_reachable (reserving 10) emptyWorld
    (fun c => c.world.partitions.objects.any fun o => placed .manager true o c.world.log)
    (show ((machine.guarded sameGeneration).limited noForgery).init emptyWorld from ⟨rfl, rfl⟩) (by decide +kernel)
  obtain ⟨o, ho, hn, hw, -⟩ := exists_of_placed hp
  exact ⟨c, hc, o, ho, hn, (authorized_iff_own hc o ho hn).2 hw⟩

/-- Another client sets the file system before the status patch. -/
def interrupted : List (Act Job Choice) :=
  List.flatten [reserving 7, [.env { change := .write sampleKey { unplaced with filesystem := some (str "ext4") } }],
    List.replicate 3 (.run 0 {})]

/-- The manager dies after the status patch, and another client sets the placement. -/
def completed : List (Act Job Choice) :=
  List.flatten [reserving 8, [.drop 0, .env { change := .write sampleKey (placedOn (str "n1")) }]]

/-- **The authorization misleads, both ways**: a placement of the manager is not authorized, and one of
another client is. -/
theorem authorization_misled :
    (∃ c, machine.system.Reachable c ∧ ∃ o ∈ c.world.partitions.objects, (view o).spec.nodeName ≠ [] ∧
      lastWriter o.key c.world.log = some .manager ∧ PlacementAuth.isAuthorized (view o) = false) ∧
    ∃ c, machine.system.Reachable c ∧ ∃ o ∈ c.world.partitions.objects, (view o).spec.nodeName ≠ [] ∧
      lastWriter o.key c.world.log = some .other ∧ PlacementAuth.isAuthorized (view o) = true := by
  constructor
  · obtain ⟨c, hc, hp⟩ := Machine.exists_reachable interrupted emptyWorld
      (fun c => c.world.partitions.objects.any fun o => placed .manager false o c.world.log)
      (show machine.init emptyWorld from ⟨rfl, rfl⟩) (by decide +kernel)
    exact ⟨c, hc, exists_of_placed hp⟩
  · obtain ⟨c, hc, hp⟩ := Machine.exists_reachable completed emptyWorld
      (fun c => c.world.partitions.objects.any fun o => placed .other true o c.world.log)
      (show machine.init emptyWorld from ⟨rfl, rfl⟩) (by decide +kernel)
    exact ⟨c, hc, exists_of_placed hp⟩

end

end Distort.Manager.Authorization
