import Distort.Lib.Feed
import Distort.Lib.Kube

/-!
One name of an API server: the object that is stored under it, and the earlier versions that a lagging
cache may still show.

* `create`, `delete`, `patch`, `patchStatus` — the requests; a deletion and the patches go to whatever
  has the name;
* `readCached` — a read of the cache;
* `Ordered` — every version is related to all the later ones; it is kept by a write that is related to
  what is stored (`Ordered.write`), and what is shown is related to everything that may be shown from
  then on (`Ordered.shown`).
-/

namespace Distort.Lib

namespace Feed

variable {α : Type} {R : α → α → Prop} {f f' : Feed α} {v : α}

/-- Every version is related to all the later ones. -/
def Ordered (R : α → α → Prop) (f : Feed α) : Prop := f.versions.Pairwise R

theorem Ordered.cur (h : f.Ordered R) (hrefl : ∀ v, R v v) (hv : v ∈ f.versions) : R v f.cur := by
  rcases mem_versions.1 hv with hold | rfl
  · exact (List.pairwise_append.1 h).2.2 v hold _ (List.mem_singleton_self _)
  · exact hrefl _

theorem Ordered.write (h : f.Ordered R) (hrefl : ∀ v, R v v) (htrans : ∀ {a b c}, R a b → R b c → R a c)
    (hv : R f.cur v) : (f.write v).Ordered R := by
  unfold Ordered
  rw [versions_write]
  refine List.pairwise_append.2 ⟨h, List.pairwise_singleton _ _, fun u hu v' hv' => ?_⟩
  obtain rfl := List.mem_singleton.1 hv'
  exact htrans (h.cur hrefl hu) hv

theorem Ordered.shows (h : f.Ordered R) (hs : f.Shows v f') : f'.Ordered R := List.Pairwise.sublist hs.suffix.sublist h

theorem Ordered.shown (h : f.Ordered R) (hrefl : ∀ v, R v v) (hs : f.Shows v f') {u : α} (hu : u ∈ f'.versions) :
    R v u := by
  obtain ⟨l, hl⟩ := hs.versions_eq
  have hpair := h.shows hs
  unfold Ordered at hpair
  rw [hl, List.pairwise_cons] at hpair
  rw [hl] at hu
  rcases List.mem_cons.1 hu with rfl | hu
  · exact hrefl _
  · exact hpair.1 u hu

end Feed

namespace Kube

open Distort.Go

variable {σ τ : Type}

/-- What is stored under a name, and the versions before it. -/
abbrev Slot (σ τ : Type) : Type := Feed (Option (Object σ τ))

namespace Slot

/-! ### Requests -/

def create (new : Object σ τ) (s : Slot σ τ) : Except Err (Object σ τ) × Slot σ τ :=
  match s.cur with
  | some _ => (.error alreadyExists, s)
  | none => (.ok new, s.write (some new))

def delete (s : Slot σ τ) : Except Err Unit × Slot σ τ :=
  match s.cur with
  | none => (.error notFound, s)
  | some o => (.ok (), s.write o.delete)

/-- A merge patch of the finalizers. -/
def patch (base new : Object σ τ) (s : Slot σ τ) : Except Err (Object σ τ) × Slot σ τ :=
  match s.cur with
  | none => (.error notFound, s)
  | some o =>
    let o' := Object.patchFinalizers base new o
    if !o.finalizersAllowed o'.metadata.finalizers then (.error forbidden, s) else (.ok o', s.write o'.settle)

/-- A merge patch of the status. -/
def patchStatus (merge : τ → τ → τ → τ) (base new : Object σ τ) (s : Slot σ τ) : Except Err (Object σ τ) × Slot σ τ :=
  match s.cur with
  | none => (.error notFound, s)
  | some o =>
    let o' := { o with status := merge base.status new.status o.status }
    (.ok o', s.write (some o'))

/-- The cache shows a version that is not older than the last one it has shown. -/
def readCached (skip : ℕ) (s : Slot σ τ) : Except Err (Object σ τ) × Slot σ τ :=
  (found (s.view skip).1, (s.view skip).2)

/-! ### What a request can do -/

variable {s : Slot σ τ} {base new : Object σ τ}

theorem create_cases (new : Object σ τ) (s : Slot σ τ) :
    s.create new = (.error alreadyExists, s) ∨ s.cur = none ∧ s.create new = (.ok new, s.write (some new)) := by
  unfold create
  split
  · exact .inl rfl
  · rename_i h
    exact .inr ⟨h, rfl⟩

theorem delete_cases (s : Slot σ τ) : s.cur = none ∧ s.delete = (.error notFound, s) ∨
    ∃ o, s.cur = some o ∧ s.delete = (.ok (), s.write o.delete) := by
  unfold delete
  split
  · rename_i h
    exact .inl ⟨h, rfl⟩
  · rename_i o h
    exact .inr ⟨o, h, rfl⟩

theorem patch_cases (base new : Object σ τ) (s : Slot σ τ) : (∃ err, s.patch base new = (.error err, s)) ∨
    ∃ o, s.cur = some o ∧ s.patch base new =
      (.ok (Object.patchFinalizers base new o), s.write (Object.patchFinalizers base new o).settle) := by
  unfold patch
  split
  · exact .inl ⟨_, rfl⟩
  rename_i o h
  simp only
  split
  · exact .inl ⟨_, rfl⟩
  · exact .inr ⟨o, h, rfl⟩

theorem patchStatus_cases (merge : τ → τ → τ → τ) (base new : Object σ τ) (s : Slot σ τ) :
    s.patchStatus merge base new = (.error notFound, s) ∨
    ∃ o, s.cur = some o ∧ s.patchStatus merge base new =
      (.ok { o with status := merge base.status new.status o.status },
        s.write (some { o with status := merge base.status new.status o.status })) := by
  unfold patchStatus
  split
  · exact .inl rfl
  · rename_i o h
    exact .inr ⟨o, h, rfl⟩

theorem readCached_shows (skip : ℕ) (s : Slot σ τ) :
    ∃ v, s.Shows v (s.readCached skip).2 ∧ (s.readCached skip).1 = found v :=
  ⟨_, s.view_shows skip, rfl⟩

end Slot

end Kube

end Distort.Lib
