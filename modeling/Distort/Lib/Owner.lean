import Distort.Lib.Feed

/-!
An owner that is read through a lagging feed.

Whoever takes a value for `c` has been shown that nobody owns it, and whoever gives it up for `c` has been
shown that `c` owns it; both act on what is stored, which may have changed since.  Because the reader never
goes backwards, this is enough: what it can still be shown is one owner (or nobody) followed by the present
one, and one of the two is nobody (`Tame`).

* `Stands o f` — what a reader that was shown the owner `o` can count on;
* `Tame.take`, `Tame.release` — the two changes of the owner that keep the feed tame.
-/

namespace Distort.Lib.Feed

variable {α ω : Type} {owner : α → Option ω} {f f' : Feed α} {v : α} {o : Option ω}

/-- The versions that can be shown have one owner first and the present one then, and one of them is nobody. -/
def Tame (owner : α → Option ω) (f : Feed α) : Prop :=
  ∃ l₁ l₂ a, f.versions = l₁ ++ l₂ ∧ (∀ v ∈ l₁, owner v = a) ∧ (∀ v ∈ l₂, owner v = owner f.cur) ∧
    (a = none ∨ owner f.cur = none)

/-- After `o` was shown: if it is the owner still, no other can be shown; and if it is somebody, nobody else
is the owner now. -/
def Stands (owner : α → Option ω) (o : Option ω) (f : Feed α) : Prop :=
  (owner f.cur = o → ∀ v ∈ f.versions, owner v = o) ∧ ∀ c, o = some c → owner f.cur = some c ∨ owner f.cur = none

theorem Tame.single (owner : α → Option ω) (v : α) : Tame owner ⟨[], v⟩ :=
  ⟨[], [v], none, rfl, by simp, by simp, .inl rfl⟩

/-- A write that leaves the owner alone. -/
theorem Tame.write_same (h : Tame owner f) (hv : owner v = owner f.cur) : Tame owner (f.write v) := by
  obtain ⟨l1, l2, a, hver, h1, h2, hor⟩ := h
  refine ⟨l1, l2 ++ [v], a, by rw [versions_write, hver, List.append_assoc], h1, fun u hu => ?_, ?_⟩
  · rw [write_cur]
    rcases List.mem_append.1 hu with hold | hnew
    · exact (h2 u hold).trans hv.symm
    · rw [List.mem_singleton.1 hnew]
  · rw [write_cur, hv]
    exact hor

theorem Stands.write_same (h : Stands owner o f) (hv : owner v = owner f.cur) : Stands owner o (f.write v) := by
  refine ⟨fun hcur u hu => ?_, fun c hc => ?_⟩
  · rw [write_cur, hv] at hcur
    rw [versions_write] at hu
    rcases List.mem_append.1 hu with hold | hnew
    · exact h.1 hcur u hold
    · rw [List.mem_singleton.1 hnew, hv, hcur]
  · rw [write_cur, hv]
    exact h.2 c hc

/-- A read forgets some of the versions. -/
theorem Tame.shows (h : Tame owner f) (hs : f.Shows v f') : Tame owner f' := by
  obtain ⟨l1, l2, a, hver, h1, h2, hor⟩ := h
  obtain ⟨t, ht⟩ := hs.suffix
  rw [hver] at ht
  rcases List.append_eq_append_iff.1 ht with ⟨l, rfl, hl⟩ | ⟨l, rfl, hl⟩
  · refine ⟨l, l2, a, hl, fun u hu => h1 u (List.mem_append_right _ hu), ?_, ?_⟩ <;> rwa [hs.cur_eq]
  refine ⟨[], f'.versions, none, rfl, by simp, fun u hu => ?_, .inl rfl⟩
  rw [hs.cur_eq]
  exact h2 u (hl ▸ List.mem_append_right _ hu)

theorem Stands.shows (h : Stands owner o f) (hs : f.Shows v f') : Stands owner o f' := by
  refine ⟨fun hcur u hu => ?_, fun c hc => ?_⟩
  · rw [hs.cur_eq] at hcur
    exact h.1 hcur u (hs.suffix.subset hu)
  · rw [hs.cur_eq]
    exact h.2 c hc

/-- **What was shown stands.** -/
theorem Tame.stands (h : Tame owner f) (hs : f.Shows v f') : Stands owner (owner v) f' := by
  obtain ⟨l1, l2, a, hver, h1, h2, hor⟩ := h.shows hs
  obtain ⟨l, hl⟩ := hs.versions_eq
  cases l1 with
  | nil =>
    -- all versions left have the present owner
    rw [List.nil_append] at hver
    have hv : owner v = owner f'.cur := h2 v (by rw [← hver, hl]; exact List.mem_cons_self)
    refine ⟨fun _ u hu => ?_, fun c hc => .inl (hv ▸ hc)⟩
    rw [hv]
    exact h2 u (hver ▸ hu)
  | cons u l1 =>
    -- the first one left belongs to the part before the present owner
    have huv : u = v := by
      rw [hl] at hver
      exact (List.cons.inj hver).1.symm
    subst huv
    have ha : owner u = a := h1 u List.mem_cons_self
    refine ⟨fun hcur x hx => ?_, fun c hc => ?_⟩
    · rw [hver] at hx
      rcases List.mem_append.1 hx with hx | hx
      · rw [h1 x hx, ha]
      · rw [h2 x hx, hcur]
    · refine .inr (hor.resolve_left ?_)
      rw [← ha, hc]
      exact Option.some_ne_none c

/-- Somebody takes what was shown to be nobody's. -/
theorem Tame.take (h : Stands owner none f) (hcur : owner f.cur = none) : Tame owner (f.write v) :=
  ⟨f.versions, [v], none, rfl, h.1 hcur, fun u hu => by rw [List.mem_singleton.1 hu, write_cur], .inl rfl⟩

/-- The owner that was shown gives it up. -/
theorem Tame.release {c : ω} (h : Tame owner f) (hs : Stands owner (some c) f) (hv : owner v = none) :
    Tame owner (f.write v) := by
  rcases hs.2 c rfl with hcur | hcur
  · exact ⟨f.versions, [v], some c, rfl, hs.1 hcur, fun u hu => by rw [List.mem_singleton.1 hu, write_cur], .inr hv⟩
  · exact h.write_same (hv.trans hcur.symm)

theorem Stands.release {c : ω} (hv : owner v = none) : Stands owner (some c) (f.write v) :=
  ⟨fun hcur => absurd (hv.symm.trans hcur) (Option.some_ne_none c).symm, fun _ _ => .inr hv⟩

end Distort.Lib.Feed
