import Distort.Go.Basic

/-!
Objects of a Kubernetes API server, and what the server does on a write.

* metadata, conditions and the helpers that clients use on them;
* `mergeField` — a merge patch computed from a base changes exactly the fields in which the new
  object differs from the base, whatever is stored;
* `Object.delete`, `Object.settle` — an object with finalizers is only marked by a deletion, and a
  marked object disappears with its last finalizer;
* `Object.patchFinalizers` — a patch that is addressed by name only.
-/

namespace Distort.Lib.Kube

open Distort.Go

/-- `types.NamespacedName`; the namespace of a cluster-scoped object is empty. -/
structure Key where
  ns : Str
  name : Str
  deriving DecidableEq

/-- `NamespacedName.String`. -/
def Key.string (k : Key) : Str := k.ns ++ str "/" ++ k.name

/-- `metav1.OwnerReference`. -/
structure OwnerReference where
  apiVersion : Str
  kind : Str
  name : Str
  uid : Str
  controller : Bool
  blockOwnerDeletion : Bool
  deriving DecidableEq

/-- `metav1.ObjectMeta`.  Of the deletion timestamp only its presence is kept. -/
structure ObjectMeta where
  ns : Str
  name : Str
  uid : Str := []
  resourceVersion : ℕ := 0
  generation : ℤ := 0
  deletionTimestamp : Bool := false
  finalizers : List Str := []
  annotations : List (Str × Str) := []
  ownerReferences : List OwnerReference := []
  deriving DecidableEq

/-- An object with its desired and its observed state. -/
structure Object (σ τ : Type) where
  metadata : ObjectMeta
  spec : σ
  status : τ
  deriving DecidableEq

variable {σ τ : Type}

/-- `client.ObjectKeyFromObject`. -/
def Object.key (o : Object σ τ) : Key := ⟨o.metadata.ns, o.metadata.name⟩

/-- `Annotations[name]`: the empty string where the annotation is absent. -/
def Object.annotation (o : Object σ τ) (name : Str) : Str := (o.metadata.annotations.lookup name).getD []

/-! ### Conditions -/

inductive ConditionStatus where
  | true | false | unknown
  deriving DecidableEq, Repr

/-- `metav1.Condition`.  The transition time changes only with the status and is left out. -/
structure Condition where
  type : Str
  status : ConditionStatus
  observedGeneration : ℤ
  reason : Str
  message : Str
  deriving DecidableEq

/-- `meta.FindStatusCondition`. -/
def findStatusCondition (cs : List Condition) (type : Str) : Option Condition :=
  cs.find? fun c => c.type = type

/-- `meta.IsStatusConditionTrue`. -/
def isStatusConditionTrue (cs : List Condition) (type : Str) : Bool :=
  match findStatusCondition cs type with
  | some c => c.status = .true
  | none => false

/-- `meta.SetStatusCondition`: the condition of the type is replaced where it stands, or added. -/
def setStatusCondition : List Condition → Condition → List Condition
  | [], new => [new]
  | c :: cs, new => if c.type = new.type then new :: cs else c :: setStatusCondition cs new

theorem findStatusCondition_set_self (cs : List Condition) (new : Condition) :
    findStatusCondition (setStatusCondition cs new) new.type = some new := by
  unfold findStatusCondition
  induction cs with
  | nil => simp [setStatusCondition]
  | cons c cs ih =>
    by_cases h : c.type = new.type
    · simp [setStatusCondition, h]
    · simp [setStatusCondition, h, ih]

/-! ### Finalizers -/

/-- `controllerutil.ContainsFinalizer`. -/
def Object.containsFinalizer (o : Object σ τ) (f : Str) : Bool := o.metadata.finalizers.contains f

/-- The object with other finalizers. -/
def Object.setFinalizers (o : Object σ τ) (fs : List Str) : Object σ τ :=
  { o with metadata := { o.metadata with finalizers := fs } }

/-- `controllerutil.AddFinalizer`. -/
def Object.addFinalizer (o : Object σ τ) (f : Str) : Object σ τ :=
  if o.containsFinalizer f then o else o.setFinalizers (o.metadata.finalizers ++ [f])

/-- `controllerutil.RemoveFinalizer`. -/
def Object.removeFinalizer (o : Object σ τ) (f : Str) : Object σ τ :=
  o.setFinalizers (o.metadata.finalizers.filter fun g => g ≠ f)

theorem containsFinalizer_iff {o : Object σ τ} {f : Str} :
    o.containsFinalizer f = true ↔ f ∈ o.metadata.finalizers := by
  simp [Object.containsFinalizer]

/-! ### Writes -/

/-- One field under a merge patch: it is in the patch if the new value differs from the base. -/
def mergeField {α : Type} [DecidableEq α] (base new stored : α) : α :=
  if new = base then stored else new

theorem mergeField_cases {α : Type} [DecidableEq α] (base new stored : α) :
    mergeField base new stored = stored ∨ mergeField base new stored = new := by
  unfold mergeField
  split <;> simp

@[simp] theorem mergeField_self {α : Type} [DecidableEq α] (base stored : α) :
    mergeField base base stored = stored := by
  simp [mergeField]

@[simp] theorem mergeField_base {α : Type} [DecidableEq α] (base new : α) : mergeField base new base = new := by
  unfold mergeField
  split
  · rename_i h
    exact h.symm
  · rfl

/-- The object as the server stores it first: the metadata that is the server's own, and no status. -/
def Object.admitted (uid : Str) (resourceVersion : ℕ) (blank : τ) (o : Object σ τ) : Object σ τ :=
  { o with
    metadata := { o.metadata with uid, resourceVersion, generation := 1, deletionTimestamp := false }
    status := blank }

/-- An object marked for deletion disappears with its last finalizer. -/
def Object.settle (o : Object σ τ) : Option (Object σ τ) :=
  if o.metadata.deletionTimestamp && o.metadata.finalizers.isEmpty then none else some o

/-- A deletion: without finalizers the object disappears, otherwise it is marked, and its
generation goes up with the first mark. -/
def Object.delete (o : Object σ τ) : Option (Object σ τ) :=
  if o.metadata.finalizers.isEmpty then none
  else if o.metadata.deletionTimestamp then some o
  else some { o with
    metadata := { o.metadata with deletionTimestamp := true, generation := o.metadata.generation + 1 } }

/-- A write that would add a finalizer to an object marked for deletion is refused. -/
def Object.finalizersAllowed (stored : Object σ τ) (fs : List Str) : Bool :=
  !stored.metadata.deletionTimestamp || fs.all stored.metadata.finalizers.contains

/-- A merge patch of the finalizers, computed from `base` and `new`: nothing says which version or
which object it was meant for. -/
def Object.patchFinalizers (base new stored : Object σ τ) : Object σ τ :=
  stored.setFinalizers (mergeField base.metadata.finalizers new.metadata.finalizers stored.metadata.finalizers)

section settle

variable {o o' : Object σ τ}

theorem settle_eq_some (h : o.settle = some o') : o' = o := by
  unfold Object.settle at h
  split at h
  · cases h
  · exact (Option.some.inj h).symm

theorem settle_eq_none (h : o.settle = none) : o.metadata.deletionTimestamp = true ∧ o.metadata.finalizers = [] := by
  unfold Object.settle at h
  split at h
  · rename_i hc
    simpa using hc
  · cases h

theorem settle_of_mem {f : Str} (h : f ∈ o.metadata.finalizers) : o.settle = some o := by
  unfold Object.settle
  rw [if_neg]
  simp only [Bool.and_eq_true, List.isEmpty_iff, not_and]
  rintro - hnil
  simp [hnil] at h

theorem settle_of_not_deleting (h : o.metadata.deletionTimestamp = false) : o.settle = some o := by
  simp [Object.settle, h]

/-- What a deletion leaves differs only in the mark and the generation. -/
theorem delete_eq_some (h : o.delete = some o') : o.metadata.finalizers ≠ [] ∧ o'.metadata.deletionTimestamp = true ∧
      o'.metadata.finalizers = o.metadata.finalizers ∧
      o'.metadata.annotations = o.metadata.annotations ∧ o'.metadata.uid = o.metadata.uid ∧
      o'.key = o.key ∧ o'.spec = o.spec ∧ o'.status = o.status := by
  unfold Object.delete at h
  split at h
  · cases h
  rename_i hne
  simp only [List.isEmpty_iff] at hne
  split at h
  · rename_i hd
    cases h
    exact ⟨hne, hd, rfl, rfl, rfl, rfl, rfl, rfl⟩
  · cases h
    exact ⟨hne, rfl, rfl, rfl, rfl, rfl, rfl, rfl⟩

theorem delete_eq_none (h : o.delete = none) : o.metadata.finalizers = [] := by
  unfold Object.delete at h
  split at h
  · rename_i hne
    simpa using hne
  · split at h <;> cases h

end settle

/-! ### What becomes of a request -/

def notFound : Err := ⟨.notFound, "not found"⟩
def alreadyExists : Err := ⟨.alreadyExists, "already exists"⟩
def conflict : Err := ⟨.conflict, "the object has been modified; please apply your changes to the latest version"⟩
def invalid : Err := ⟨.other, "is invalid"⟩
def forbidden : Err := ⟨.other, "metadata.finalizers: Forbidden"⟩

/-- The answer to a request for one object. -/
def found {α : Type} : Option α → Except Err α
  | none => .error notFound
  | some a => .ok a

theorem found_eq_ok {α : Type} {o : Option α} {a : α} (h : found o = .ok a) : o = some a := by
  cases o with
  | none => cases h
  | some b => rw [Except.ok.inj h]

/-- An error that no answer about the stored objects has. -/
def injected (err : Err) : Bool := !err.isNotFound && !err.isAlreadyExists && !err.isConflict

/-- What becomes of a request. -/
inductive Fate where
  | ok
  | fail (err : Err)
  /-- It takes effect, but the caller gets an error. -/
  | lost (err : Err)

/-- The answer and the state after a request with the given fate, from those after a request that
was served; a failure is one of the `allowed` errors. -/
def Fate.answerWith {α W : Type} (allowed : Err → Bool) (fate : Fate) (w : W) (served : Except Err α × W) :
    Option (Except Err α × W) :=
  match fate with
  | .ok => some served
  | .fail err => if allowed err then some (.error err, w) else none
  | .lost err => if allowed err then some (.error err, served.2) else none

/-- A failure says nothing about the stored objects. -/
def Fate.answer {α W : Type} (fate : Fate) (w : W) (served : Except Err α × W) : Option (Except Err α × W) :=
  fate.answerWith injected w served

/-- A failure may say anything. -/
def Fate.answerAny {α W : Type} (fate : Fate) (w : W) (served : Except Err α × W) : Option (Except Err α × W) :=
  fate.answerWith (fun _ => true) w served

section fate

variable {α W : Type} {allowed : Err → Bool} {fate : Fate} {w w' : W} {served : Except Err α × W} {r : Except Err α}

/-- A request is served, or it fails with or without its effect. -/
theorem Fate.answerWith_cases (h : fate.answerWith allowed w served = some (r, w')) :
    (r = served.1 ∧ w' = served.2) ∨ ∃ err, r = .error err ∧ allowed err = true ∧ (w' = w ∨ w' = served.2) := by
  cases fate with
  | ok => exact .inl (Prod.ext_iff.1 (Option.some.inj h).symm)
  | fail err =>
    simp only [Fate.answerWith, Option.ite_none_right_eq_some, Option.some.injEq, Prod.mk.injEq] at h
    obtain ⟨hi, rfl, rfl⟩ := h
    exact .inr ⟨err, rfl, hi, .inl rfl⟩
  | lost err =>
    simp only [Fate.answerWith, Option.ite_none_right_eq_some, Option.some.injEq, Prod.mk.injEq] at h
    obtain ⟨hi, rfl, rfl⟩ := h
    exact .inr ⟨err, rfl, hi, .inr rfl⟩

theorem Fate.answerWith_state (h : fate.answerWith allowed w served = some (r, w')) : w' = w ∨ w' = served.2 := by
  rcases Fate.answerWith_cases h with ⟨-, hw⟩ | ⟨_, -, -, hw⟩
  · exact .inr hw
  · exact hw

/-- A request that the server refuses changes nothing. -/
theorem Fate.answerWith_refused {e : Err} (h : fate.answerWith allowed w (.error e, w) = some (r, w')) :
    w' = w ∧ ∃ err, r = .error err := by
  rcases Fate.answerWith_cases h with ⟨hr, hw⟩ | ⟨err, hr, -, hw⟩
  · exact ⟨hw, e, hr⟩
  · exact ⟨hw.elim id id, err, hr⟩

/-- A success is what the server answered. -/
theorem Fate.answerWith_ok {a : α} (h : fate.answerWith allowed w served = some (.ok a, w')) :
    served = (.ok a, w') := by
  rcases Fate.answerWith_cases h with ⟨hr, hw⟩ | ⟨_, hr, -⟩
  · exact Prod.ext hr.symm hw.symm
  · cases hr

theorem Fate.answer_state (h : fate.answer w served = some (r, w')) : w' = w ∨ w' = served.2 :=
  Fate.answerWith_state h

theorem Fate.answer_ok {a : α} (h : fate.answer w served = some (.ok a, w')) : served = (.ok a, w') :=
  Fate.answerWith_ok h

/-- A missing object is reported by the server only. -/
theorem Fate.answer_notFound {err : Err} (h : fate.answer w served = some (.error err, w'))
    (hn : err.isNotFound = true) : served = (.error err, w') := by
  rcases Fate.answerWith_cases h with ⟨hr, hw⟩ | ⟨e, hr, hi, -⟩
  · exact Prod.ext hr.symm hw.symm
  · cases hr
    simp [injected, hn] at hi

end fate

end Distort.Lib.Kube
