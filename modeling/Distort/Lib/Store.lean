import Mathlib.Algebra.BigOperators.Group.List.Basic
import Mathlib.Data.List.Nodup
import Distort.Lib.Kube

/-!
The objects of one kind that an API server stores.

Every write gives the object a resource version that no earlier write had.  So a client that finds the
version it has read finds the object it has read (`Pins`): this is all that an update with a
version check rests on.

* `Store.find`, `Store.put`, `Store.add` — the object of a key is looked up, replaced or removed, added;
* `Store.create`, `update`, `patchStatus`, `patch`, `delete` — the requests;
* `Store.Ok` — one object for each key, and no version from the future;
* `Store.Evolves` — what is left of a store after some writes.
-/

namespace Distort.Lib.Kube

open Distort.Go

variable {σ τ : Type}

structure Store (σ τ : Type) where
  objects : List (Object σ τ)
  /-- The last resource version that was given out. -/
  version : ℕ

namespace Store

def find (s : Store σ τ) (key : Key) : Option (Object σ τ) := s.objects.find? fun o => o.key = key

/-- The object of the key is replaced, or removed. -/
def put (s : Store σ τ) (key : Key) (v : Option (Object σ τ)) : Store σ τ :=
  ⟨s.objects.filterMap fun o => if o.key = key then v else some o, s.version + 1⟩

def add (s : Store σ τ) (o : Object σ τ) : Store σ τ := ⟨s.objects ++ [o], s.version + 1⟩

/-! ### Requests -/

/-- The object as it is stored by the next write. -/
def stamp (s : Store σ τ) (o : Object σ τ) : Object σ τ :=
  { o with metadata := { o.metadata with resourceVersion := s.version + 1 } }

/-- The object as it is stored by the next write, if there is none under its name. -/
def admitted (s : Store σ τ) (uid : Str) (blank : τ) (o : Object σ τ) : Object σ τ :=
  o.admitted uid (s.version + 1) blank

def create (uid : Str) (blank : τ) (o : Object σ τ) (s : Store σ τ) : Except Err (Object σ τ) × Store σ τ :=
  match s.find o.key with
  | some _ => (.error alreadyExists, s)
  | none => (.ok (s.admitted uid blank o), s.add (s.admitted uid blank o))

/-- What an update makes of the stored object: the status is not its business, and the generation counts
the changes of the spec. -/
def updated [DecidableEq σ] (s : Store σ τ) (stored o : Object σ τ) : Object σ τ :=
  { stored with
    metadata := { stored.metadata with
      resourceVersion := s.version + 1
      generation := if o.spec = stored.spec then stored.metadata.generation else stored.metadata.generation + 1
      finalizers := o.metadata.finalizers
      annotations := o.metadata.annotations
      ownerReferences := o.metadata.ownerReferences }
    spec := o.spec }

/-- An update is refused unless it is based on the stored version and the rules of the kind allow it. -/
def update [DecidableEq σ] (allow : σ → σ → Bool) (o : Object σ τ) (s : Store σ τ) :
    Except Err (Object σ τ) × Store σ τ :=
  match s.find o.key with
  | none => (.error notFound, s)
  | some stored =>
    if o.metadata.resourceVersion ≠ stored.metadata.resourceVersion then (.error conflict, s)
    else if !allow stored.spec o.spec then (.error invalid, s)
    else if !stored.finalizersAllowed o.metadata.finalizers then (.error forbidden, s)
    else (.ok (s.updated stored o), s.put o.key (s.updated stored o).settle)

/-- A merge patch of the status, of whatever has the name. -/
def patchStatus (merge : τ → τ → τ → τ) (base o : Object σ τ) (s : Store σ τ) : Except Err (Object σ τ) × Store σ τ :=
  match s.find o.key with
  | none => (.error notFound, s)
  | some stored =>
    let o' := s.stamp { stored with status := merge base.status o.status stored.status }
    (.ok o', s.put o.key (some o'))

/-- A merge patch of the spec, of whatever has the name. -/
def patchSpec [DecidableEq σ] (merge : σ → σ → σ → σ) (base o : Object σ τ) (s : Store σ τ) :
    Except Err (Object σ τ) × Store σ τ :=
  match s.find o.key with
  | none => (.error notFound, s)
  | some stored =>
    let o' := s.updated stored { stored with spec := merge base.spec o.spec stored.spec }
    (.ok o', s.put o.key (some o'))

/-- A merge patch of the finalizers, of whatever has the name. -/
def patch (base o : Object σ τ) (s : Store σ τ) : Except Err (Object σ τ) × Store σ τ :=
  match s.find o.key with
  | none => (.error notFound, s)
  | some stored =>
    let o' := s.stamp (Object.patchFinalizers base o stored)
    if !stored.finalizersAllowed o'.metadata.finalizers then (.error forbidden, s)
    else (.ok o', s.put o.key o'.settle)

/-- Deletes whatever has the name. -/
def delete (key : Key) (s : Store σ τ) : Except Err Unit × Store σ τ :=
  match s.find key with
  | none => (.error notFound, s)
  | some stored => (.ok (), s.put key (stored.delete.map s.stamp))

/-! ### What is stored -/

/-- One object for each key, and no version from the future. -/
structure Ok (s : Store σ τ) : Prop where
  keys : (s.objects.map Object.key).Nodup
  versions : ∀ o ∈ s.objects, o.metadata.resourceVersion ≤ s.version

/-- Every object is as it was, or was written since. -/
structure Evolves (s s' : Store σ τ) : Prop where
  version : s.version ≤ s'.version
  objects : ∀ o ∈ s'.objects, o ∈ s.objects ∨ s.version < o.metadata.resourceVersion

variable {s s' s'' : Store σ τ} {key : Key} {o o' : Object σ τ}

theorem Ok.eq_of_key (h : s.Ok) (ho : o ∈ s.objects) (ho' : o' ∈ s.objects) (hk : o.key = o'.key) : o = o' :=
  List.inj_on_of_nodup_map h.keys ho ho' hk

theorem mem_of_find (h : s.find key = some o) : o ∈ s.objects ∧ o.key = key :=
  ⟨List.mem_of_find?_eq_some h, by simpa using List.find?_some h⟩

theorem Ok.find_eq (h : s.Ok) (ho : o ∈ s.objects) : s.find o.key = some o := by
  cases hf : s.find o.key with
  | none =>
    have hne : o.key ≠ o.key := by simpa using List.find?_eq_none.1 hf o ho
    exact absurd rfl hne
  | some o' =>
    obtain ⟨ho', hk⟩ := mem_of_find hf
    rw [h.eq_of_key ho' ho hk]

theorem not_mem_of_find (h : s.find key = none) (ho : o ∈ s.objects) : o.key ≠ key := by
  simpa using List.find?_eq_none.1 h o ho

theorem mem_put {v : Option (Object σ τ)} :
    o ∈ (s.put key v).objects ↔ o ∈ s.objects ∧ o.key ≠ key ∨ v = some o ∧ ∃ o' ∈ s.objects, o'.key = key := by
  simp only [put, List.mem_filterMap]
  constructor
  · rintro ⟨x, hx, hv⟩
    split at hv
    · rename_i hk
      exact .inr ⟨hv, x, hx, hk⟩
    rename_i hk
    cases hv
    exact .inl ⟨hx, hk⟩
  · rintro (⟨ho, hk⟩ | ⟨rfl, x, hx, hk⟩)
    · exact ⟨o, ho, by simp [hk]⟩
    · exact ⟨x, hx, by simp [hk]⟩

theorem put_some (s : Store σ τ) (key : Key) (o : Object σ τ) :
    (s.put key (some o)).objects = s.objects.map fun x => if x.key = key then o else x := by
  rw [put, ← List.filterMap_eq_map]
  refine List.filterMap_congr fun x _ => ?_
  simp only [Function.comp_apply]
  split
  · rfl
  · rfl

/-- What is written is found. -/
theorem find_put {v : Option (Object σ τ)} (h : s.find key = some o) (hv : ∀ o', v = some o' → o'.key = key) :
    (s.put key v).find key = v := by
  unfold find put at *
  generalize s.objects = l at h
  induction l with
  | nil => cases h
  | cons x l ih =>
    by_cases hx : x.key = key
    · cases v with
      | some o' => simp [hx, hv o' rfl]
      | none =>
        simp only [List.filterMap_cons, hx, if_true, List.find?_eq_none, List.mem_filterMap, decide_eq_true_eq]
        rintro y ⟨z, -, hz⟩ hy
        split at hz
        · cases hz
        · rename_i hne
          exact hne (Option.some.inj hz ▸ hy)
    · simp only [List.find?_cons, hx, decide_false] at h
      simp only [List.filterMap_cons, hx, if_false, List.find?_cons, decide_false]
      exact ih h

theorem Evolves.refl (s : Store σ τ) : s.Evolves s := ⟨le_rfl, fun _ ho => .inl ho⟩

theorem Evolves.trans (h : s.Evolves s') (h' : s'.Evolves s'') : s.Evolves s'' := by
  refine ⟨h.version.trans h'.version, fun o ho => ?_⟩
  rcases h'.objects o ho with hs' | hlt
  · exact h.objects o hs'
  · exact .inr (lt_of_le_of_lt h.version hlt)

/-- Whatever has the key and the version of the object is the object. -/
def Pins (o : Object σ τ) (s : Store σ τ) : Prop :=
  o.metadata.resourceVersion ≤ s.version ∧
    ∀ o' ∈ s.objects, o'.key = o.key → o'.metadata.resourceVersion = o.metadata.resourceVersion → o' = o

theorem Ok.pins (h : s.Ok) (ho : o ∈ s.objects) : Pins o s :=
  ⟨h.versions o ho, fun _ ho' hk _ => h.eq_of_key ho' ho hk⟩

theorem Pins.evolves (h : Pins o s) (he : s.Evolves s') : Pins o s' := by
  refine ⟨h.1.trans he.version, fun o' ho' hk hv => ?_⟩
  rcases he.objects o' ho' with hold | hlt
  · exact h.2 o' hold hk hv
  · have := h.1
    omega

theorem evolves_put {v : Option (Object σ τ)} (hv : ∀ o, v = some o → o.metadata.resourceVersion = s.version + 1) :
    s.Evolves (s.put key v) := by
  refine ⟨Nat.le_succ _, fun o ho => ?_⟩
  rcases mem_put.1 ho with ⟨hold, -⟩ | ⟨hnew, -⟩
  · exact .inl hold
  · exact .inr (by rw [hv o hnew]; exact Nat.lt_succ_self _)

theorem evolves_add (ho : o.metadata.resourceVersion = s.version + 1) : s.Evolves (s.add o) := by
  refine ⟨Nat.le_succ _, fun o' ho' => ?_⟩
  rcases List.mem_append.1 ho' with hold | hnew
  · exact .inl hold
  · obtain rfl := List.mem_singleton.1 hnew
    exact .inr (by rw [ho]; exact Nat.lt_succ_self _)

theorem Ok.put (h : s.Ok) {v : Option (Object σ τ)}
    (hv : ∀ o, v = some o → o.key = key ∧ o.metadata.resourceVersion = s.version + 1) : (s.put key v).Ok := by
  constructor
  · have hsub : ((s.put key v).objects.map Object.key).Sublist (s.objects.map Object.key) := by
      simp only [Store.put]
      induction s.objects with
      | nil => simp
      | cons x l ih =>
        rw [List.filterMap_cons, List.map_cons]
        by_cases hk : x.key = key
        · cases hvo : v with
          | none => simpa [hk, hvo] using ih.trans (List.sublist_cons_self _ _)
          | some o => simpa [hk, hvo, (hv o hvo).1] using ih
        · simpa [hk] using ih
    exact h.keys.sublist hsub
  · intro o ho
    rcases mem_put.1 ho with ⟨hold, -⟩ | ⟨hnew, -⟩
    · exact (h.versions o hold).trans (Nat.le_succ _)
    · exact (hv o hnew).2.le

theorem Ok.add (h : s.Ok) (hf : s.find o.key = none) (ho : o.metadata.resourceVersion = s.version + 1) :
    (s.add o).Ok := by
  constructor
  · simp only [Store.add, List.map_append, List.map_cons, List.map_nil]
    refine List.nodup_append.2 ⟨h.keys, by simp, ?_⟩
    intro k hk k' hk'
    obtain ⟨x, hx, rfl⟩ := List.mem_map.1 hk
    obtain rfl := List.mem_singleton.1 hk'
    exact not_mem_of_find hf hx
  · intro o' ho'
    rcases List.mem_append.1 ho' with hold | hnew
    · exact (h.versions o' hold).trans (Nat.le_succ _)
    · obtain rfl := List.mem_singleton.1 hnew
      exact ho.le

/-- How a sum over all objects changes with a replacement. -/
theorem Ok.sum_put (h : s.Ok) (hf : s.find key = some o) (v : Option (Object σ τ)) (f : Object σ τ → ℤ) :
    ((s.put key v).objects.map f).sum = (s.objects.map f).sum - f o + (v.map f).getD 0 := by
  obtain ⟨l, n⟩ := s
  have hkeys : (l.map Object.key).Nodup := h.keys
  simp only [find] at hf
  simp only [Store.put]
  clear h
  induction l with
  | nil => cases hf
  | cons x l ih =>
    rw [List.map_cons, List.nodup_cons] at hkeys
    rw [List.find?_cons] at hf
    by_cases hk : x.key = key
    · -- the keys differ, so this is the only one that is replaced
      simp only [hk, decide_true] at hf
      obtain rfl := Option.some.inj hf
      have hrest : l.filterMap (fun y => if y.key = key then v else some y) = l := by
        refine (List.filterMap_congr fun y hy => ?_).trans List.filterMap_some
        refine if_neg fun hyk => hkeys.1 ?_
        rw [hk, ← hyk]
        exact List.mem_map_of_mem hy
      cases v with
      | none => simp [hk, hrest]
      | some o' => simp [hk, hrest, add_comm]
    · simp only [hk, decide_false] at hf
      have := ih hf hkeys.2
      simp only [List.filterMap_cons, hk, if_false, List.map_cons, List.sum_cons, this]
      omega

/-! ### What a request can do -/

theorem update_cases [DecidableEq σ] (allow : σ → σ → Bool) : (∃ err, s.update allow o = (.error err, s)) ∨
    ∃ stored, s.find o.key = some stored ∧ o.metadata.resourceVersion = stored.metadata.resourceVersion ∧
      allow stored.spec o.spec = true ∧
      s.update allow o = (.ok (s.updated stored o), s.put o.key (s.updated stored o).settle) := by
  unfold update
  cases hf : s.find o.key with
  | none => exact .inl ⟨_, rfl⟩
  | some stored =>
    simp only
    split
    · exact .inl ⟨_, rfl⟩
    rename_i hv
    split
    · exact .inl ⟨_, rfl⟩
    rename_i ha
    split
    · exact .inl ⟨_, rfl⟩
    · exact .inr ⟨stored, rfl, not_not.1 hv, by simpa using ha, rfl⟩

theorem patchStatus_cases (merge : τ → τ → τ → τ) (base o : Object σ τ) :
    s.find o.key = none ∧ s.patchStatus merge base o = (.error notFound, s) ∨
    ∃ stored, s.find o.key = some stored ∧ s.patchStatus merge base o =
      (.ok (s.stamp { stored with status := merge base.status o.status stored.status }),
        s.put o.key (some (s.stamp { stored with status := merge base.status o.status stored.status }))) := by
  unfold patchStatus
  cases hf : s.find o.key with
  | none => exact .inl ⟨rfl, rfl⟩
  | some stored => exact .inr ⟨stored, rfl, rfl⟩

/-- The status of an object is written as it is stored. -/
theorem patchStatus_stored {merge : τ → τ → τ → τ} (hmerge : ∀ base new, merge base new base = new)
    (h : s.find key = some o) (status : τ) : s.patchStatus merge o { o with status } =
      (.ok (s.stamp { o with status }), s.put key (some (s.stamp { o with status }))) := by
  have hkey : Object.key { o with status } = key := (mem_of_find h).2
  rw [patchStatus, hkey, h]
  simp only [hmerge]

theorem patchSpec_cases [DecidableEq σ] (merge : σ → σ → σ → σ) (base o : Object σ τ) :
    s.find o.key = none ∧ s.patchSpec merge base o = (.error notFound, s) ∨
    ∃ stored, s.find o.key = some stored ∧ s.patchSpec merge base o =
      (.ok (s.updated stored { stored with spec := merge base.spec o.spec stored.spec }),
        s.put o.key (some (s.updated stored { stored with spec := merge base.spec o.spec stored.spec }))) := by
  unfold patchSpec
  cases hf : s.find o.key with
  | none => exact .inl ⟨rfl, rfl⟩
  | some stored => exact .inr ⟨stored, rfl, rfl⟩

theorem patch_cases (base o : Object σ τ) : (∃ err, s.patch base o = (.error err, s)) ∨
    ∃ stored, s.find o.key = some stored ∧ s.patch base o = (.ok (s.stamp (Object.patchFinalizers base o stored)),
        s.put o.key (s.stamp (Object.patchFinalizers base o stored)).settle) := by
  unfold patch
  cases hf : s.find o.key with
  | none => exact .inl ⟨_, rfl⟩
  | some stored =>
    simp only
    split
    · exact .inl ⟨_, rfl⟩
    · exact .inr ⟨stored, rfl, rfl⟩

/-- A finalizer is taken off an object as it is stored. -/
theorem patch_removeFinalizer (h : s.find o.key = some o) (f : Str) : s.patch o (o.removeFinalizer f) =
      (.ok (s.stamp (o.removeFinalizer f)), s.put o.key (s.stamp (o.removeFinalizer f)).settle) := by
  have hfind : s.find (o.removeFinalizer f).key = some o := h
  have hpatch : Object.patchFinalizers o (o.removeFinalizer f) o = o.removeFinalizer f := by
    rw [Object.patchFinalizers, mergeField_base]
    rfl
  have hallowed : o.finalizersAllowed (o.removeFinalizer f).metadata.finalizers = true := by
    have hsub : ∀ g ∈ (o.removeFinalizer f).metadata.finalizers, o.metadata.finalizers.contains g = true :=
      fun g hg => List.contains_iff_mem.2 (List.mem_of_mem_filter hg)
    rw [Object.finalizersAllowed, List.all_eq_true.2 hsub, Bool.or_true]
  unfold patch
  rw [hfind]
  dsimp only
  rw [hpatch]
  have hstamp : (s.stamp (o.removeFinalizer f)).metadata.finalizers = (o.removeFinalizer f).metadata.finalizers := rfl
  rw [hstamp, hallowed]
  rfl

theorem delete_cases (key : Key) : s.find key = none ∧ s.delete key = (.error notFound, s) ∨
    ∃ stored, s.find key = some stored ∧ s.delete key = (.ok (), s.put key (stored.delete.map s.stamp)) := by
  unfold delete
  cases hf : s.find key with
  | none => exact .inl ⟨rfl, rfl⟩
  | some stored => exact .inr ⟨stored, rfl, rfl⟩

end Store

end Distort.Lib.Kube
