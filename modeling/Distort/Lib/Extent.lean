import Mathlib

/-!
Ranges of integers, and what they leave free of a range.

* `Span` — the integers from `first` to `last`, both included;
* `gaps lo hi spans` — the maximal ranges between `lo` and `hi` that no span meets, for spans in ascending order;
* `mem_freeSpans` — a gap lies in the range and meets no span;
* `sum_length_le` — spans that are apart from each other are together not longer than the range that they lie in;
* `Packed lo spans`, `freeSpans_packed` — spans one after the other from `lo` on, and the two ranges that they leave free.
-/

namespace Distort.Lib

structure Span where
  first : ℤ
  last : ℤ
  deriving DecidableEq

namespace Span

/-- Nothing is in both. -/
def Apart (a b : Span) : Prop := a.last < b.first ∨ b.last < a.first

instance (a b : Span) : Decidable (a.Apart b) := inferInstanceAs (Decidable (_ ∨ _))

def length (a : Span) : ℤ := a.last - a.first + 1

theorem Apart.symm {a b : Span} (h : a.Apart b) : b.Apart a := Or.symm h

/-- A smaller range is apart too. -/
theorem Apart.mono {a b c : Span} (h : a.Apart b) (hfirst : a.first ≤ c.first) (hlast : c.last ≤ a.last) : c.Apart b := by
  unfold Apart at *
  omega

/-- The order in which spans lie, by where they start. -/
def le (a b : Span) : Prop := a.first ≤ b.first

instance : DecidableRel le := fun a b => inferInstanceAs (Decidable (a.first ≤ b.first))

instance : Std.Total le := ⟨fun a b => Int.le_total a.first b.first⟩

instance : IsTrans Span le := ⟨fun _ _ _ h h' => Int.le_trans h h'⟩

end Span

/-- What is free from `lo` on. -/
def gaps (lo hi : ℤ) : List Span → List Span
  | [] => if lo ≤ hi then [⟨lo, hi⟩] else []
  | s :: spans => (if lo < s.first then [⟨lo, s.first - 1⟩] else []) ++ gaps (max lo (s.last + 1)) hi spans

theorem gaps_cons (lo hi : ℤ) (s : Span) (spans : List Span) :
    gaps lo hi (s :: spans) = (if lo < s.first then [⟨lo, s.first - 1⟩] else []) ++ gaps (max lo (s.last + 1)) hi spans := rfl

/-- What a set of spans leaves free. -/
def freeSpans (lo hi : ℤ) (spans : List Span) : List Span := gaps lo hi (spans.insertionSort Span.le)

variable {lo hi : ℤ} {spans : List Span}

theorem mem_gaps {g : Span} (hsorted : spans.Pairwise Span.le)
    (hin : ∀ s ∈ spans, s.first ≤ s.last ∧ s.last ≤ hi) (hg : g ∈ gaps lo hi spans) :
    lo ≤ g.first ∧ g.first ≤ g.last ∧ g.last ≤ hi ∧ ∀ s ∈ spans, g.Apart s := by
  induction spans generalizing lo with
  | nil =>
    simp only [gaps] at hg
    split at hg
    · obtain rfl := List.mem_singleton.1 hg
      exact ⟨le_rfl, ‹_›, le_rfl, nofun⟩
    · cases hg
  | cons s spans ih =>
    obtain ⟨hfirst, hsorted⟩ := List.pairwise_cons.1 hsorted
    obtain ⟨hs, hshi⟩ := hin s List.mem_cons_self
    rcases List.mem_append.1 hg with hg | hg
    · -- the gap before the first span is before all others too
      split at hg
      · obtain rfl := List.mem_singleton.1 hg
        refine ⟨le_rfl, by dsimp only; omega, by dsimp only; omega, fun s' hs' => .inl ?_⟩
        rcases List.mem_cons.1 hs' with rfl | hs'
        · dsimp only
          omega
        have := hfirst s' hs'
        simp only [Span.le] at this
        dsimp only
        omega
      · cases hg
    · obtain ⟨hlo, hgg, hhi, hapart⟩ := ih hsorted (fun s' hs' => hin s' (List.mem_cons_of_mem _ hs')) hg
      refine ⟨by omega, hgg, hhi, fun s' hs' => ?_⟩
      rcases List.mem_cons.1 hs' with rfl | hs'
      · exact .inr (by omega)
      · exact hapart s' hs'

/-- **What is free is apart from everything.** -/
theorem mem_freeSpans {g : Span} (hin : ∀ s ∈ spans, s.first ≤ s.last ∧ s.last ≤ hi)
    (hg : g ∈ freeSpans lo hi spans) : lo ≤ g.first ∧ g.first ≤ g.last ∧ g.last ≤ hi ∧ ∀ s ∈ spans, g.Apart s := by
  obtain ⟨hlo, hgg, hhi, hapart⟩ := mem_gaps (List.pairwise_insertionSort Span.le spans)
    (fun s hs => hin s ((List.mem_insertionSort _).1 hs)) hg
  exact ⟨hlo, hgg, hhi, fun s hs => hapart s ((List.mem_insertionSort _).2 hs)⟩

/-- All integers of some spans. -/
noncomputable def covered (spans : List Span) : Finset ℤ := spans.foldr (fun s u => Finset.Icc s.first s.last ∪ u) ∅

theorem mem_covered {x : ℤ} : x ∈ covered spans ↔ ∃ s ∈ spans, s.first ≤ x ∧ x ≤ s.last := by
  induction spans with
  | nil => simp [covered]
  | cons s spans ih =>
    have hcons : covered (s :: spans) = Finset.Icc s.first s.last ∪ covered spans := rfl
    rw [hcons, Finset.mem_union, Finset.mem_Icc, ih]
    simp only [List.mem_cons, exists_eq_or_imp]

theorem card_covered (hapart : spans.Pairwise Span.Apart) (hpos : ∀ s ∈ spans, s.first ≤ s.last) :
    ((covered spans).card : ℤ) = (spans.map Span.length).sum := by
  induction spans with
  | nil => rfl
  | cons s spans ih =>
    obtain ⟨hs, hapart⟩ := List.pairwise_cons.1 hapart
    have hcons : covered (s :: spans) = Finset.Icc s.first s.last ∪ covered spans := rfl
    have hdisjoint : Disjoint (Finset.Icc s.first s.last) (covered spans) := by
      refine Finset.disjoint_left.2 fun x hx hx' => ?_
      obtain ⟨s', hs', hfirst, hlast⟩ := mem_covered.1 hx'
      have hxs := Finset.mem_Icc.1 hx
      have := hs s' hs'
      unfold Span.Apart at this
      omega
    have hlen := hpos s List.mem_cons_self
    rw [hcons, Finset.card_union_of_disjoint hdisjoint, Nat.cast_add, ih hapart fun s' hs' =>
      hpos s' (List.mem_cons_of_mem _ hs'), Int.card_Icc, List.map_cons, List.sum_cons, Span.length]
    omega

/-- **Disjoint spans fit.** -/
theorem sum_length_le (hapart : spans.Pairwise Span.Apart)
    (hin : ∀ s ∈ spans, s.first ≤ s.last ∧ lo ≤ s.first ∧ s.last ≤ hi) (hle : lo ≤ hi + 1) :
    (spans.map Span.length).sum ≤ hi - lo + 1 := by
  have hsub : covered spans ⊆ Finset.Icc lo hi := by
    intro x hx
    obtain ⟨s, hs, hfirst, hlast⟩ := mem_covered.1 hx
    obtain ⟨-, hlo, hhi⟩ := hin s hs
    exact Finset.mem_Icc.2 ⟨by omega, by omega⟩
  have hcard := Finset.card_le_card hsub
  rw [Int.card_Icc] at hcard
  rw [← card_covered hapart fun s hs => (hin s hs).1]
  omega

/-! ### Spans without a hole -/

/-- One after the other, from `lo` on. -/
def Packed : ℤ → List Span → Prop
  | _, [] => True
  | lo, s :: spans => s.first = lo ∧ s.first ≤ s.last ∧ Packed (s.last + 1) spans

def total (spans : List Span) : ℤ := (spans.map Span.length).sum

theorem total_cons (s : Span) (spans : List Span) : total (s :: spans) = s.length + total spans := by
  rw [total, total, List.map_cons, List.sum_cons]

theorem Packed.le (h : Packed lo spans) : ∀ s ∈ spans, lo ≤ s.first ∧ s.first ≤ s.last := by
  induction spans generalizing lo with
  | nil => nofun
  | cons s spans ih =>
    obtain ⟨hfirst, hle, h⟩ := h
    intro s' hs'
    rcases List.mem_cons.1 hs' with rfl | hs'
    · exact ⟨hfirst.ge, hle⟩
    · obtain ⟨hlo, hle'⟩ := ih h s' hs'
      exact ⟨by omega, hle'⟩

theorem Packed.sorted (h : Packed lo spans) : spans.Pairwise Span.le := by
  induction spans generalizing lo with
  | nil => exact .nil
  | cons s spans ih =>
    obtain ⟨-, hle, h⟩ := h
    refine List.pairwise_cons.2 ⟨fun s' hs' => ?_, ih h⟩
    have := (h.le s' hs').1
    unfold Span.le
    omega

theorem Packed.append (h : Packed lo spans) {s : Span} (hs : s.first = lo + total spans)
    (hle : s.first ≤ s.last) : Packed lo (spans ++ [s]) := by
  induction spans generalizing lo with
  | nil => exact ⟨by simpa [total] using hs, hle, trivial⟩
  | cons s' spans ih =>
    obtain ⟨hfirst, hle', h⟩ := h
    rw [total_cons, Span.length] at hs
    exact ⟨hfirst, hle', ih h (by omega)⟩

/-- What is left when spans are taken away from the end. -/
theorem Packed.filter {α : Type} {f : α → Span} {p : α → Bool} {l : List α} (h : Packed lo (l.map f))
    (hend : ∀ a ∈ l, p a = false → ∀ b ∈ l, p b = true → (f b).last < (f a).first) : Packed lo ((l.filter p).map f) := by
  induction l generalizing lo with
  | nil => trivial
  | cons a l ih =>
    obtain ⟨hfirst, hle, h⟩ := h
    have hend' := fun a ha hpa b hb => hend a (List.mem_cons_of_mem _ ha) hpa b (List.mem_cons_of_mem _ hb)
    by_cases ha : p a = true
    · rw [List.filter_cons_of_pos ha]
      exact ⟨hfirst, hle, ih h hend'⟩
    -- all others lie after it, so none is left
    have hnone : l.filter p = [] := by
      refine List.filter_eq_nil_iff.2 fun b hb hpb => ?_
      have hbefore := hend a List.mem_cons_self (by simpa using ha) b (List.mem_cons_of_mem _ hb) hpb
      have hafter := h.le (f b) (List.mem_map_of_mem hb)
      omega
    rw [List.filter_cons_of_neg ha, hnone]
    trivial

theorem gaps_packed (h : Packed lo spans) : gaps lo hi spans = gaps (lo + total spans) hi [] := by
  induction spans generalizing lo with
  | nil => simp [total]
  | cons s spans ih =>
    obtain ⟨rfl, hle, h⟩ := h
    have hmax : max s.first (s.last + 1) = s.last + 1 := by omega
    have hsum : s.last + 1 + total spans = s.first + total (s :: spans) := by
      rw [total_cons, Span.length]
      omega
    rw [gaps_cons, if_neg (lt_irrefl _), List.nil_append, hmax, ih h, hsum]

/-- **What packed spans leave free**: what is before them, and what is after them. -/
theorem freeSpans_packed {lo' : ℤ} (h : Packed lo spans) (hlo : lo' < lo) (hne : spans ≠ []) :
    freeSpans lo' hi spans = ⟨lo', lo - 1⟩ :: gaps (lo + total spans) hi [] := by
  rw [freeSpans, h.sorted.insertionSort_eq]
  cases spans with
  | nil => exact absurd rfl hne
  | cons s spans =>
    have hpacked : gaps lo hi (s :: spans) = gaps (lo + total (s :: spans)) hi [] := gaps_packed h
    obtain ⟨rfl, hle, h⟩ := h
    have hmax : max lo' (s.last + 1) = max s.first (s.last + 1) := by omega
    rw [gaps_cons, if_neg (lt_irrefl _), List.nil_append] at hpacked
    rw [gaps_cons, if_pos hlo, hmax, hpacked, List.singleton_append]

end Distort.Lib
