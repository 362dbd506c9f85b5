import Mathlib.Data.List.Basic

/-!
A reader that lags behind a writer but never goes backwards.

A `Feed` is one stored value together with the earlier versions that the reader may still be shown,
oldest first.  A write puts the old value into that queue; a read shows one of the versions and
forgets the ones before it.  A reader without lag is shown the stored value.
-/

namespace Distort.Lib

/-- The stored value and the earlier versions that a lagging reader may still see. -/
structure Feed (α : Type) where
  older : List α
  cur : α

namespace Feed

variable {α : Type} {f f' : Feed α} {v : α}

/-- The versions that the reader may still be shown. -/
def versions (f : Feed α) : List α := f.older ++ [f.cur]

/-- A new value is stored. -/
def write (f : Feed α) (v : α) : Feed α := ⟨f.older ++ [f.cur], v⟩

/-- A read without lag. -/
def latest (f : Feed α) : Feed α := ⟨[], f.cur⟩

/-- The reader is shown `v` and is left with `f'`. -/
def Shows (f : Feed α) (v : α) (f' : Feed α) : Prop :=
  (v = f.cur ∧ f' = f.latest) ∨ ∃ l₁ l₂, f.older = l₁ ++ v :: l₂ ∧ f' = ⟨v :: l₂, f.cur⟩

/-- The read that skips `n` versions, or is shown the stored value if there are not so many. -/
def view (f : Feed α) (n : ℕ) : α × Feed α :=
  match f.older.drop n with
  | v :: l => (v, ⟨v :: l, f.cur⟩)
  | [] => (f.cur, f.latest)

@[simp] theorem write_cur (f : Feed α) (v : α) : (f.write v).cur = v := rfl

theorem mem_versions : v ∈ f.versions ↔ v ∈ f.older ∨ v = f.cur := by
  simp [versions]

theorem cur_mem (f : Feed α) : f.cur ∈ f.versions := by simp [versions]

@[simp] theorem versions_write (f : Feed α) (v : α) : (f.write v).versions = f.versions ++ [v] := rfl

theorem view_shows (f : Feed α) (n : ℕ) : f.Shows (f.view n).1 (f.view n).2 := by
  unfold view
  cases h : f.older.drop n with
  | nil => exact .inl ⟨rfl, rfl⟩
  | cons v l => exact .inr ⟨f.older.take n, l, by rw [← h, List.take_append_drop], rfl⟩

theorem latest_shows (f : Feed α) : f.Shows f.cur f.latest := .inl ⟨rfl, rfl⟩

theorem Shows.cur_eq (h : f.Shows v f') : f'.cur = f.cur := by
  rcases h with ⟨-, rfl⟩ | ⟨l1, l2, -, rfl⟩ <;> rfl

/-- What is shown is the first version left. -/
theorem Shows.versions_eq (h : f.Shows v f') : ∃ l, f'.versions = v :: l := by
  rcases h with ⟨rfl, rfl⟩ | ⟨l1, l2, -, rfl⟩
  · exact ⟨[], rfl⟩
  · exact ⟨l2 ++ [f.cur], rfl⟩

theorem Shows.mem_left (h : f.Shows v f') : v ∈ f'.versions := by
  obtain ⟨l, hl⟩ := h.versions_eq
  simp [hl]

theorem Shows.suffix (h : f.Shows v f') : f'.versions <:+ f.versions := by
  rcases h with ⟨rfl, rfl⟩ | ⟨l1, l2, ho, rfl⟩
  · exact ⟨f.older, rfl⟩
  · exact ⟨l1, by simp [versions, ho]⟩

theorem Shows.mem (h : f.Shows v f') : v ∈ f.versions := h.suffix.subset h.mem_left

end Feed

end Distort.Lib
