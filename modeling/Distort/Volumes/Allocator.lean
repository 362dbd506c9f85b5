import Mathlib.Algebra.Order.BigOperators.Group.List
import Distort.Volumes.Disk

/-!
What the partition tables are for: an allocator of ranges.

* `Fits` — a partition that the allocator may add: the lowest number, a new name, a free range of exactly the right
  size;
* `Step` — the allocator labels a disk, adds a partition, or takes one away;
* `Sound`, `Step.sound` — what all its tables have in common;
* `lowestUnused_spec`, `firstFit_eq` — the number and the range that the code chooses;
* `selectFreeExtent_exact` — a range is found if and only if there is one, although the arithmetic wraps.
-/

namespace Distort.Volumes

open Go Lib Agent Agent.Parted

/-! ### Numbers -/

variable (used : List ℤ)

theorem lowestFrom_le (steps : ℕ) (n : ℤ) : n ≤ lowestFrom used steps n ∧ lowestFrom used steps n ≤ n + steps := by
  induction steps generalizing n with
  | zero => simp [lowestFrom]
  | succ steps ih =>
    rw [lowestFrom]
    split
    · have := ih (n + 1)
      omega
    · omega

theorem lowestFrom_passed (steps : ℕ) (n : ℤ) : ∀ m, n ≤ m → m < lowestFrom used steps n → m ∈ used := by
  induction steps generalizing n with
  | zero =>
    intro m h h'
    rw [lowestFrom] at h'
    omega
  | succ steps ih =>
    intro m h h'
    rw [lowestFrom] at h'
    split at h'
    · rename_i hn
      rcases eq_or_lt_of_le h with rfl | hlt
      · exact hn
      · exact ih (n + 1) m (by omega) h'
    · omega

theorem lowestFrom_stops {used : List ℤ} {steps : ℕ} {n : ℤ} (h : lowestFrom used steps n < n + steps) :
    lowestFrom used steps n ∉ used := by
  induction steps generalizing n with
  | zero =>
    rw [lowestFrom] at h
    simp at h
  | succ steps ih =>
    rw [lowestFrom] at h ⊢
    split
    · rename_i hn
      rw [if_pos hn] at h
      exact ih (by push_cast at h ⊢; omega)
    · assumption

/-- **The lowest number that is not used.** -/
theorem lowestUnused_spec : 1 ≤ lowestUnused used ∧ lowestUnused used ≤ used.length + 1 ∧
    lowestUnused used ∉ used ∧ ∀ m, 1 ≤ m → m < lowestUnused used → m ∈ used := by
  obtain ⟨hge, hle⟩ := lowestFrom_le used used.length 1
  refine ⟨hge, by rw [lowestUnused]; omega, fun hmem => ?_, lowestFrom_passed used used.length 1⟩
  -- otherwise more numbers are used than there are
  have hlast : lowestUnused used = 1 + used.length := by
    by_contra hne
    exact lowestFrom_stops (by rw [lowestUnused] at hne; omega) hmem
  have hall : (List.range (used.length + 1)).map (fun i : ℕ => (1 : ℤ) + i) ⊆ used := by
    intro m hm
    obtain ⟨i, hi, rfl⟩ := List.mem_map.1 hm
    rcases eq_or_lt_of_le (Nat.le_of_lt_succ (List.mem_range.1 hi)) with heq | hlt
    · rw [heq, ← hlast]
      exact hmem
    · exact lowestFrom_passed used used.length 1 _ (by omega) (by rw [lowestUnused] at hlast; omega)
  have hnodup : ((List.range (used.length + 1)).map fun i : ℕ => (1 : ℤ) + i).Nodup :=
    List.nodup_range.map fun a b h => by simpa using h
  have := (hnodup.subperm hall).length_le
  simp at this

/-! ### Ranges -/

theorem i64_wrap {n : ℤ} (h₀ : maxInt64 < n) (h₁ : n ≤ 2 * maxInt64 + 1) : i64 n = n - 18446744073709551616 := by
  unfold i64 maxInt64 at *
  rw [Int.bmod_def]
  split <;> omega

theorem alignUp_eq {value : ℤ} (h₀ : 0 ≤ value) (h₁ : value + 1048575 ≤ maxInt64) :
    alignUp value partitionAlignmentBytes = (value + 1048575) / 1048576 * 1048576 := by
  have hint : maxInt64 = 9223372036854775807 := rfl
  have hunit : partitionAlignmentBytes = 1048576 := rfl
  have hsum : i64 (i64 (value + 1048576) - 1) = value + 1048575 := by
    have hwrap : i64 (i64 (value + 1048576) - 1) = i64 (value + 1048576 - 1) := Int.bmod_sub_bmod
    rw [hwrap, i64_of_range (by omega) (by omega)]
    omega
  rw [alignUp, hunit, hsum, Int.tdiv_eq_ediv_of_nonneg (by omega), i64_of_range (by omega) (by omega)]

theorem alignUp_wraps {value : ℤ} (h₀ : maxInt64 < value + 1048575) (h₁ : value ≤ maxInt64) :
    -9223372036854775808 ≤ alignUp value partitionAlignmentBytes ∧
      alignUp value partitionAlignmentBytes ≤ -9223372036853727232 := by
  have hint : maxInt64 = 9223372036854775807 := rfl
  have hunit : partitionAlignmentBytes = 1048576 := rfl
  have hsum : i64 (i64 (value + 1048576) - 1) = value + 1048575 - 18446744073709551616 := by
    have hwrap : i64 (i64 (value + 1048576) - 1) = i64 (value + 1048576 - 1) := Int.bmod_sub_bmod
    rw [hwrap, i64_wrap (by omega) (by omega)]
    omega
  have hdiv : (value + 1048575 - 18446744073709551616).tdiv 1048576 =
      -((18446744073709551616 - (value + 1048575)) / 1048576) := by
    rw [← Int.neg_sub, Int.neg_tdiv, Int.tdiv_eq_ediv_of_nonneg (by omega)]
  rw [alignUp, hunit, hsum, hdiv, i64_of_range (by omega) (by omega)]
  omega

/-- The first boundary in an extent, or behind it. -/
def boundary (e : Extent) : ℤ := (e.start + 1048575) / 1048576 * 1048576

/-- The numbers of an extent as `parted` can print them. -/
abbrev InRange (e : Extent) : Prop := 0 ≤ e.start ∧ e.start ≤ e.stop ∧ e.stop ≤ maxInt64

variable {e : Extent}

section fit

variable {size : ℤ} {extents : List Extent} (h₀ : 0 < size) (h₁ : size ≤ maxInt64)
include h₀ h₁

/-- **Whatever wraps, the test is whether there is room after the first boundary**, and then nothing has wrapped. -/
theorem fits_iff (h : InRange e) : (alignUp e.start partitionAlignmentBytes ≤ e.stop ∧
      i64 (size - 1) ≤ i64 (e.stop - alignUp e.start partitionAlignmentBytes)) ↔ boundary e + size - 1 ≤ e.stop := by
  have hint : maxInt64 = 9223372036854775807 := rfl
  obtain ⟨hstart, hle, hstop⟩ := h
  unfold boundary
  rw [i64_of_range (n := size - 1) (by omega) (by omega)]
  by_cases hwrap : e.start + 1048575 ≤ maxInt64
  · rw [alignUp_eq hstart hwrap, i64_of_range (by omega) (by omega)]
    omega
  · -- the length that is computed from a wrapped start is negative
    have hend := alignUp_wraps (by omega) (show e.start ≤ maxInt64 by omega)
    rw [i64_wrap (by omega) (by omega)]
    omega

theorem firstFit_eq (h : ∀ e ∈ extents, InRange e) : firstFit size extents =
    (extents.find? fun e => boundary e + size - 1 ≤ e.stop).map fun e => (boundary e, boundary e + size - 1) := by
  induction extents with
  | nil => rfl
  | cons e extents ih =>
    have hint : maxInt64 = 9223372036854775807 := rfl
    obtain ⟨he, hrest⟩ := List.forall_mem_cons.1 h
    rw [firstFit, List.find?_cons]
    by_cases hfit : boundary e + size - 1 ≤ e.stop
    · obtain ⟨hstart, -, hstop⟩ := id he
      have heq : alignUp e.start partitionAlignmentBytes = boundary e :=
        alignUp_eq hstart (by unfold boundary at hfit; omega)
      have hback : i64 (i64 (boundary e + size) - 1) = i64 (boundary e + size - 1) := Int.bmod_sub_bmod
      have hpos : 0 ≤ boundary e := by
        unfold boundary
        omega
      rw [if_pos ((fits_iff h₀ h₁ he).2 hfit), decide_eq_true hfit, heq, hback, i64_of_range (by omega) (by omega)]
      rfl
    · rw [if_neg fun h => hfit ((fits_iff h₀ h₁ he).1 h), decide_eq_false hfit]
      exact ih hrest

theorem firstFit_spec {start stop : ℤ} (hin : ∀ e ∈ extents, InRange e) (h : firstFit size extents = some (start, stop)) :
    stop = start + size - 1 ∧ ∃ e ∈ extents, start = boundary e ∧ stop ≤ e.stop := by
  rw [firstFit_eq h₀ h₁ hin] at h
  obtain ⟨e, hfind, heq⟩ := Option.map_eq_some_iff.1 h
  obtain ⟨rfl, rfl⟩ := Prod.mk.inj heq
  exact ⟨rfl, e, List.mem_of_find?_eq_some hfind, rfl, by simpa using List.find?_some hfind⟩

theorem firstFit_isSome (hin : ∀ e ∈ extents, InRange e) (he : e ∈ extents)
    (hroom : boundary e + size - 1 ≤ e.stop) : ∃ range, firstFit size extents = some range := by
  have hsome : (extents.find? fun e => boundary e + size - 1 ≤ e.stop).isSome = true :=
    List.find?_isSome.2 ⟨e, he, decide_eq_true hroom⟩
  obtain ⟨e', hfind⟩ := Option.isSome_iff_exists.1 hsome
  rw [firstFit_eq h₀ h₁ hin, hfind]
  exact ⟨_, rfl⟩

/-- A 1 MiB-aligned range of the size that lies in the extent. -/
def AlignedRange (size : ℤ) (e : Extent) (start : ℤ) : Prop :=
  1048576 ∣ start ∧ e.start ≤ start ∧ start + size - 1 ≤ e.stop

omit h₀ h₁ in
theorem alignedRange_boundary {start : ℤ} (h : AlignedRange size e start) :
    boundary e ≤ start ∧ boundary e + size - 1 ≤ e.stop := by
  obtain ⟨⟨k, rfl⟩, hstart, hstop⟩ := h
  unfold boundary
  omega

omit h₀ h₁ in
theorem alignedRange_of_room (h : boundary e + size - 1 ≤ e.stop) : AlignedRange size e (boundary e) := by
  refine ⟨⟨_, mul_comm _ _⟩, ?_, h⟩
  unfold boundary
  omega

/-- **The selection is sound and complete**, whatever wraps: it finds a range if and only if there is one, and then the
lowest one of the first extent that has one. -/
theorem selectFreeExtent_exact (hin : ∀ e ∈ extents, InRange e) :
    ((∃ range, selectFreeExtent extents size = .ok range) ↔ ∃ e ∈ extents, ∃ start, AlignedRange size e start) ∧
    ∀ start stop, selectFreeExtent extents size = .ok (start, stop) → stop = start + size - 1 ∧
      ∃ before e after, extents = before ++ e :: after ∧ (∀ e' ∈ before, ∀ start, ¬ AlignedRange size e' start) ∧
        AlignedRange size e start ∧ ∀ start', AlignedRange size e start' → start ≤ start' := by
  have hselect : ∀ range, selectFreeExtent extents size = .ok range ↔ firstFit size extents = some range := by
    intro range
    rw [selectFreeExtent, if_neg (not_le.2 h₀)]
    cases firstFit size extents <;> simp
  simp only [hselect]
  constructor
  · constructor
    · rintro ⟨⟨start, stop⟩, hrange⟩
      obtain ⟨rfl, e, he, rfl, hroom⟩ := firstFit_spec h₀ h₁ hin hrange
      exact ⟨e, he, _, alignedRange_of_room hroom⟩
    · rintro ⟨e, he, start, hstart⟩
      exact firstFit_isSome h₀ h₁ hin he (alignedRange_boundary hstart).2
  · intro start stop hrange
    rw [firstFit_eq h₀ h₁ hin] at hrange
    obtain ⟨e, hfind, heq⟩ := Option.map_eq_some_iff.1 hrange
    obtain ⟨rfl, rfl⟩ := Prod.mk.inj heq
    obtain ⟨hroom, before, after, hsplit, hbefore⟩ := List.find?_eq_some_iff_append.1 hfind
    refine ⟨rfl, before, e, after, hsplit, fun e' he' start hstart => ?_, alignedRange_of_room (of_decide_eq_true hroom),
      fun start' hstart' => (alignedRange_boundary hstart').1⟩
    have hno := hbefore e' he'
    rw [decide_eq_true (alignedRange_boundary hstart).2] at hno
    cases hno

end fit

/-- The start of the first extent wraps when it is aligned; the second one is taken. -/
theorem selectFreeExtent_exact_near_max :
    selectFreeExtent [⟨9223372036854775000, 9223372036854775807⟩, ⟨17408, 5242879⟩] 4194304 = .ok (1048576, 5242879) ∧
    5242879 = (1048576 : ℤ) + 4194304 - 1 := by
  have hok : selectFreeExtent [⟨9223372036854775000, 9223372036854775807⟩, ⟨17408, 5242879⟩] 4194304 =
      .ok (1048576, 5242879) := rfl
  exact ⟨hok, ((selectFreeExtent_exact (by decide) (by decide) (by decide)).2 _ _ hok).1⟩

/-! ### The allocator -/

/-- What all tables have in common. -/
structure Sound (drive : Drive) (slots : List Slot) : Prop where
  apart : slots.Pairwise fun s s' => s.span.Apart s'.span
  numbers : (slots.map Slot.number).Nodup
  names : (slots.map Slot.name).Nodup
  size : ∀ s ∈ slots, Capacity.roundUp s.requested = .ok s.span.length
  within : ∀ s ∈ slots, drive.first ≤ s.span.first ∧ s.span.last ≤ drive.last
  number_range : ∀ s ∈ slots, 1 ≤ s.number ∧ s.number ≤ maxInt64
  text : ∀ s ∈ slots, fieldText s.name = true

/-- A partition that may be added. -/
structure Fits (drive : Drive) (slots : List Slot) (s : Slot) : Prop where
  number : s.number = lowestUnused (slots.map Slot.number)
  name : s.name ∉ slots.map Slot.name
  text : fieldText s.name = true
  size : Capacity.roundUp s.requested = .ok s.span.length
  within : drive.first ≤ s.span.first ∧ s.span.last ≤ drive.last
  apart : ∀ s' ∈ slots, s'.span.Apart s.span

/-- The moves of the allocator. -/
inductive Step (drive : Drive) : Table → Table → Prop
  | label : Step drive none (some [])
  | add {slots : List Slot} {s : Slot} : Fits drive slots s → Step drive (some slots) (some (slots ++ [s]))
  | drop {slots : List Slot} (number : ℤ) :
      Step drive (some slots) (some (slots.filter fun s => s.number ≠ number))

/-- A table of the allocator. -/
def Allocated (drive : Drive) : Table → Prop := Relation.ReflTransGen (Step drive) none

theorem Sound.nil (drive : Drive) : Sound drive [] :=
  ⟨.nil, .nil, .nil, nofun, nofun, nofun, nofun⟩

variable {drive : Drive} {slots : List Slot}

theorem Sound.filter (h : Sound drive slots) (p : Slot → Bool) : Sound drive (slots.filter p) where
  apart := h.apart.filter p
  numbers := h.numbers.sublist (List.filter_sublist.map _)
  names := h.names.sublist (List.filter_sublist.map _)
  size s hs := h.size s (List.mem_of_mem_filter hs)
  within s hs := h.within s (List.mem_of_mem_filter hs)
  number_range s hs := h.number_range s (List.mem_of_mem_filter hs)
  text s hs := h.text s (List.mem_of_mem_filter hs)

theorem Sound.first_le_last (h : Sound drive slots) {s : Slot} (hs : s ∈ slots) : s.span.first ≤ s.span.last := by
  have := (Capacity.roundUp_pos (h.size s hs)).1
  rw [Span.length] at this
  omega

theorem Sound.length_lt {s : Slot} (h : Sound drive slots) (hs : Fits drive slots s) :
    (slots.length : ℤ) + 1 ≤ maxInt64 := by
  have hunit : Capacity.allocationUnitBytes = 4194304 := rfl
  have hint : maxInt64 = 9223372036854775807 := rfl
  have hs0 := Capacity.unit_le_roundUp hs.size
  have hlength : s.span.length = s.span.last - s.span.first + 1 := rfl
  have hfirst := drive.first_nonneg
  have hlast := drive.last_le
  have hwithin := hs.within
  have hfit : (((s :: slots).map Slot.span).map Span.length).sum ≤ drive.last - drive.first + 1 := by
    refine sum_length_le ?_ (fun x hx => ?_) (by omega)
    · refine List.pairwise_cons.2 ⟨fun x hx => ?_, List.pairwise_map.2 h.apart⟩
      obtain ⟨s', hs', rfl⟩ := List.mem_map.1 hx
      exact (hs.apart s' hs').symm
    · obtain ⟨s', hs', rfl⟩ := List.mem_map.1 hx
      rcases List.mem_cons.1 hs' with rfl | hs'
      · exact ⟨by omega, hwithin⟩
      · exact ⟨h.first_le_last hs', h.within s' hs'⟩
  have hunits := List.card_nsmul_le_sum (((s :: slots).map Slot.span).map Span.length) Capacity.allocationUnitBytes (by
    intro x hx
    rw [List.map_map] at hx
    obtain ⟨s', hs', rfl⟩ := List.mem_map.1 hx
    rcases List.mem_cons.1 hs' with rfl | hs'
    · exact hs0
    · exact Capacity.unit_le_roundUp (h.size s' hs'))
  simp only [List.length_map, List.length_cons, nsmul_eq_mul, hunit] at hunits
  push_cast at hunits
  omega

/-- **A partition that fits keeps the table sound.** -/
theorem Sound.add {s : Slot} (h : Sound drive slots) (hs : Fits drive slots s) : Sound drive (slots ++ [s]) := by
  have hmem : ∀ {P : Slot → Prop}, (∀ x ∈ slots, P x) → P s → ∀ x ∈ slots ++ [s], P x := by
    intro P hP hPs x hx
    rcases List.mem_append.1 hx with hx | hx
    · exact hP x hx
    · rw [List.mem_singleton.1 hx]
      exact hPs
  obtain ⟨hge, hle, hunused, -⟩ := lowestUnused_spec (slots.map Slot.number)
  refine ⟨?_, ?_, ?_, hmem h.size hs.size, hmem h.within hs.within, hmem h.number_range ?_, hmem h.text hs.text⟩
  · refine List.pairwise_append.2 ⟨h.apart, List.pairwise_singleton _ _, fun x hx y hy => ?_⟩
    rw [List.mem_singleton.1 hy]
    exact hs.apart x hx
  · rw [List.map_append, List.map_singleton, List.nodup_append_comm, List.singleton_append, List.nodup_cons, hs.number]
    exact ⟨hunused, h.numbers⟩
  · rw [List.map_append, List.map_singleton, List.nodup_append_comm, List.singleton_append, List.nodup_cons]
    exact ⟨hs.name, h.names⟩
  · rw [List.length_map] at hle
    have := h.length_lt hs
    rw [hs.number]
    omega

theorem Step.sound {t t' : Table} (h : Step drive t t') (ht : ∀ slots, t = some slots → Sound drive slots) :
    ∀ slots, t' = some slots → Sound drive slots := by
  cases h with
  | label =>
    rintro slots ⟨⟩
    exact .nil drive
  | add hs =>
    rintro slots ⟨⟩
    exact (ht _ rfl).add hs
  | drop number =>
    rintro slots ⟨⟩
    exact (ht _ rfl).filter _

/-- **Every table of the allocator is sound.** -/
theorem Allocated.sound (h : Allocated drive (some slots)) : Sound drive slots := by
  have hall : ∀ t, Allocated drive t → ∀ slots, t = some slots → Sound drive slots := by
    intro t ht
    induction ht with
    | refl => nofun
    | tail _ hstep ih => exact hstep.sound ih
  exact hall _ h slots rfl

end Distort.Volumes
