import Mathlib.Order.Bounds.Basic
import Distort.Csi.Create

/-!
The capacity that a request is given: `normalizeCapacityRange` and `RoundUp`, over all 64-bit values.

* `capacitySteps` — the exact result of every operation on 64-bit integers that a negotiation performs;
* `negotiation_exact` — when a negotiation succeeds, what it allocates, and when an operation wraps.
-/

namespace Distort.Csi

open Go Capacity

/-! ### The operations -/

def IsInt64 (n : ℤ) : Prop := -9223372036854775808 ≤ n ∧ n ≤ maxInt64

instance (n : ℤ) : Decidable (IsInt64 n) := inferInstanceAs (Decidable (_ ∧ _))

/-- The exact results of the operations of a negotiation, each on the operands that it really has. -/
def capacitySteps (capacityRange : CapacityRange) : List ℤ := (normalizeCapacityRangeTraced capacityRange).steps

/-! ### What they come to -/

theorem roundUpTraced_range {bytes n : ℤ} (h : n ∈ (roundUpTraced bytes).steps) :
    IsInt64 n ∨ bytes = maxAllocatableBytes ∧ (n = maxInt64 + 1 ∨ n = -9223372036854775808 - 1) := by
  obtain ⟨hunit, hmax, hint⟩ := constants
  by_cases h0 : bytes ≤ 0
  · rw [roundUpTraced, if_pos h0] at h
    cases h
  by_cases h1 : bytes > maxAllocatableBytes
  · rw [roundUpTraced, if_neg h0, if_pos h1] at h
    cases h
  rw [roundUpTraced_eq (not_le.1 h0) (not_lt.1 h1), hunit] at h
  simp only [List.mem_cons, List.not_mem_nil, or_false] at h
  unfold IsInt64
  by_cases hlast : bytes = maxAllocatableBytes
  · have hsum : i64 (bytes + 4194304) = -9223372036854775808 := by
      rw [hlast, hmax]
      decide
    rw [hsum] at h
    omega
  · have hsum : i64 (bytes + 4194304) = bytes + 4194304 := i64_of_range (by omega) (by omega)
    rw [hsum] at h
    omega

variable {limitBytes : ℤ}

theorem requiredWithin_eq (h0 : 0 ≤ limitBytes) : requiredWithin limitBytes =
    if limitBytes < defaultVolumeCapacityBytes then
      let requiredBytes := limitBytes / allocationUnitBytes * allocationUnitBytes
      ⟨[limitBytes / allocationUnitBytes, requiredBytes],
        if requiredBytes = 0 then .error (.errorf "limit_bytes %d is smaller than the minimum allocation unit %d"
          [.int limitBytes, .int allocationUnitBytes]) else .ok requiredBytes⟩
    else pure defaultVolumeCapacityBytes := by
  obtain ⟨hunit, -, hint⟩ := constants
  have hdefault : defaultVolumeCapacityBytes = 1073741824 := rfl
  have hdiv : limitBytes.tdiv allocationUnitBytes = limitBytes / allocationUnitBytes := Int.tdiv_eq_ediv_of_nonneg h0
  unfold requiredWithin
  split
  · have hquotient : i64 (limitBytes / allocationUnitBytes) = limitBytes / allocationUnitBytes :=
      i64_of_range (by rw [hunit]; omega) (by rw [hunit]; omega)
    have hproduct : i64 (limitBytes / allocationUnitBytes * allocationUnitBytes) =
        limitBytes / allocationUnitBytes * allocationUnitBytes :=
      i64_of_range (by rw [hunit]; omega) (by rw [hunit]; omega)
    simp only [bind, Traced.op, hdiv, hquotient, hproduct]
    split <;> rfl
  · rfl

variable {requiredBytes : ℤ}

theorem requiredWithin_eq_ok (h0 : 0 < limitBytes) :
    (requiredWithin limitBytes).result = .ok requiredBytes ↔ allocationUnitBytes ≤ limitBytes ∧
      requiredBytes = min (limitBytes / allocationUnitBytes * allocationUnitBytes) defaultVolumeCapacityBytes := by
  have hunit := constants.1
  have hdefault : defaultVolumeCapacityBytes = 1073741824 := rfl
  rw [requiredWithin_eq h0.le, hunit, hdefault]
  split
  · dsimp only
    split
    · simp only [reduceCtorEq, false_iff, not_and]
      omega
    · simp only [Except.ok.injEq]
      omega
  · simp only [pure, Except.ok.injEq]
    omega

theorem fitRounded_range {n : ℤ} (h : n ∈ (fitRounded limitBytes requiredBytes).steps) :
    n ∈ (roundUpTraced requiredBytes).steps := by
  unfold fitRounded at h
  split at h
  · cases h
  rcases Traced.mem_steps_bind h with h | ⟨_, -, h⟩
  · exact h
  · split at h <;> cases h

theorem fitRounded_eq_ok {bytes allocated : ℤ} (hl : 0 ≤ limitBytes) :
    (fitRounded limitBytes requiredBytes).result = .ok (bytes, allocated) ↔ requiredBytes = bytes ∧
      roundUp bytes = .ok allocated ∧ (limitBytes = 0 ∨ bytes ≤ limitBytes ∧ allocated ≤ limitBytes) := by
  by_cases hexceeds : limitBytes > 0 ∧ requiredBytes > limitBytes
  · rw [fitRounded, if_pos hexceeds]
    simp only [Traced.fail, reduceCtorEq, false_iff, not_and]
    omega
  rw [fitRounded, if_neg hexceeds, Traced.result_bind]
  change (roundUp requiredBytes).bind _ = _ ↔ _
  rcases hround : roundUp requiredBytes with err | rounded
  · simp only [Except.bind, reduceCtorEq, false_iff, not_and]
    rintro rfl h
    rw [hround] at h
    cases h
  by_cases hover : limitBytes > 0 ∧ rounded > limitBytes
  · simp only [Except.bind, hover, and_self, if_true, Traced.fail, reduceCtorEq, false_iff, not_and]
    rintro rfl h
    rw [hround] at h
    cases h
    omega
  · simp only [Except.bind, hover, if_false, pure, Except.ok.injEq, Prod.mk.injEq]
    constructor
    · rintro ⟨rfl, rfl⟩
      exact ⟨rfl, hround, by omega⟩
    · rintro ⟨rfl, h, -⟩
      rw [hround] at h
      cases h
      exact ⟨rfl, rfl⟩

/-- **What a negotiation comes to.** -/
theorem normalizeCapacityRange_eq_ok {bytes allocated : ℤ} :
    normalizeCapacityRange (some ⟨requiredBytes, limitBytes⟩) = .ok (bytes, allocated) ↔
      0 ≤ requiredBytes ∧ 0 ≤ limitBytes ∧ ¬(requiredBytes = 0 ∧ limitBytes = 0) ∧
      (if requiredBytes = 0 then (requiredWithin limitBytes).result = .ok bytes else bytes = requiredBytes) ∧
      roundUp bytes = .ok allocated ∧ (limitBytes = 0 ∨ bytes ≤ limitBytes ∧ allocated ≤ limitBytes) := by
  simp only [normalizeCapacityRange, normalizeCapacityRangeTraced]
  by_cases hrefused : requiredBytes < 0 ∨ limitBytes < 0 ∨ requiredBytes = 0 ∧ limitBytes = 0
  · constructor
    · intro h
      split_ifs at h
      · cases h
      · cases h
      · cases h
      all_goals omega
    · omega
  simp only [not_or, not_lt] at hrefused
  obtain ⟨hr, hl, hz⟩ := hrefused
  rw [if_neg (not_lt.2 hr), if_neg (not_lt.2 hl), if_neg hz]
  simp only [hr, hl, hz, not_false_eq_true, true_and]
  by_cases hzero : requiredBytes = 0
  · rw [if_pos hzero, if_pos hzero, Traced.result_bind]
    cases (requiredWithin limitBytes).result with
    | error err => simp only [Except.bind, reduceCtorEq, false_and]
    | ok v =>
      simp only [Except.bind, Except.ok.injEq]
      exact fitRounded_eq_ok hl
  · rw [if_neg hzero, if_neg hzero, eq_comm (a := bytes)]
    exact fitRounded_eq_ok hl

/-! ### The negotiation -/

/-- A size that serves a request. -/
def Serves (requiredBytes limitBytes a : ℤ) : Prop :=
  allocationUnitBytes ∣ a ∧ IsInt64 a ∧ requiredBytes ≤ a ∧ (limitBytes = 0 ∨ a ≤ limitBytes)

theorem roundUp_isLeast {bytes allocated : ℤ} (h : roundUp bytes = .ok allocated)
    (hlimit : limitBytes = 0 ∨ allocated ≤ limitBytes) : IsLeast { a | Serves bytes limitBytes a } allocated := by
  have hunit := constants.1
  have hpos := roundUp_pos h
  obtain ⟨h0, -, rfl⟩ := roundUp_eq_ok.1 h
  constructor
  · refine ⟨Dvd.intro_left _ rfl, ⟨by omega, hpos.2⟩, ?_, hlimit⟩
    rw [hunit]
    omega
  · rintro a ⟨⟨k, rfl⟩, -, hle, -⟩
    rw [hunit] at hle ⊢
    omega

theorem roundUp_of_serves {bytes a : ℤ} (h0 : 0 < bytes) (h : Serves bytes limitBytes a) :
    ∃ allocated, roundUp bytes = .ok allocated ∧ allocated ≤ a := by
  obtain ⟨hunit, hmax, hint⟩ := constants
  obtain ⟨⟨k, rfl⟩, ⟨-, hk⟩, hle, -⟩ := h
  rw [hunit] at hk hle ⊢
  refine ⟨_, roundUp_eq_ok.2 ⟨h0, by omega, rfl⟩, ?_⟩
  rw [hunit]
  omega

theorem negotiation_required (h0 : 0 < requiredBytes) :
    ((∃ v, normalizeCapacityRange (some ⟨requiredBytes, limitBytes⟩) = .ok v) ↔
        0 ≤ limitBytes ∧ ∃ a, Serves requiredBytes limitBytes a) ∧
      ∀ v, normalizeCapacityRange (some ⟨requiredBytes, limitBytes⟩) = .ok v →
        IsLeast { a | Serves requiredBytes limitBytes a } v.2 := by
  have hne : requiredBytes ≠ 0 := by omega
  have hleast : ∀ v, normalizeCapacityRange (some ⟨requiredBytes, limitBytes⟩) = .ok v →
      0 ≤ limitBytes ∧ IsLeast { a | Serves requiredBytes limitBytes a } v.2 := by
    rintro ⟨bytes, allocated⟩ hv
    obtain ⟨-, hl, -, hbytes, hround, hlimit⟩ := normalizeCapacityRange_eq_ok.1 hv
    rw [if_neg hne] at hbytes
    subst hbytes
    exact ⟨hl, roundUp_isLeast hround (by omega)⟩
  refine ⟨⟨?_, ?_⟩, fun v hv => (hleast v hv).2⟩
  · rintro ⟨v, hv⟩
    exact ⟨(hleast v hv).1, v.2, (hleast v hv).2.1⟩
  · rintro ⟨hl, a, ha⟩
    obtain ⟨allocated, hround, hle⟩ := roundUp_of_serves h0 ha
    obtain ⟨-, -, hrequired, hlimit⟩ := ha
    refine ⟨(requiredBytes, allocated), normalizeCapacityRange_eq_ok.2 ⟨by omega, hl, by omega, ?_, hround, by omega⟩⟩
    rw [if_neg hne]

theorem negotiation_limit (h0 : 0 < limitBytes) :
    ((∃ v, normalizeCapacityRange (some ⟨0, limitBytes⟩) = .ok v) ↔ allocationUnitBytes ≤ limitBytes) ∧
      ∀ v, normalizeCapacityRange (some ⟨0, limitBytes⟩) = .ok v →
        0 < v.2 ∧ allocationUnitBytes ∣ v.2 ∧ v.2 ≤ limitBytes := by
  obtain ⟨hunit, hmax, -⟩ := constants
  have hdefault : defaultVolumeCapacityBytes = 1073741824 := rfl
  refine ⟨⟨?_, ?_⟩, ?_⟩
  · rintro ⟨⟨bytes, allocated⟩, hv⟩
    obtain ⟨-, -, -, hbytes, -, -⟩ := normalizeCapacityRange_eq_ok.1 hv
    rw [if_pos rfl] at hbytes
    exact ((requiredWithin_eq_ok h0).1 hbytes).1
  · intro hle
    obtain ⟨bytes, hwithin⟩ : ∃ bytes, (requiredWithin limitBytes).result = .ok bytes :=
      ⟨_, (requiredWithin_eq_ok h0).2 ⟨hle, rfl⟩⟩
    have hbytes := ((requiredWithin_eq_ok h0).1 hwithin).2
    rw [hunit] at hle
    rw [hunit, hdefault] at hbytes
    have hround := roundUp_eq_ok.2 ⟨show 0 < bytes by omega, by omega, rfl⟩
    refine ⟨(bytes, _), normalizeCapacityRange_eq_ok.2 ⟨le_rfl, h0.le, by omega, ?_, hround, ?_⟩⟩
    · rw [if_pos rfl]
      exact hwithin
    · rw [hunit]
      omega
  · rintro ⟨bytes, allocated⟩ hv
    obtain ⟨-, -, -, -, hround, hlimit⟩ := normalizeCapacityRange_eq_ok.1 hv
    obtain ⟨hdvd, -, -, -⟩ := (roundUp_isLeast hround (Or.inl (rfl : (0 : ℤ) = 0))).1
    exact ⟨(roundUp_pos hround).1, hdvd, by omega⟩

theorem negotiation_refused (h : requiredBytes < 0 ∨ limitBytes < 0 ∨ requiredBytes = 0 ∧ limitBytes = 0) :
    ∃ err, normalizeCapacityRange (some ⟨requiredBytes, limitBytes⟩) = .error err := by
  rcases hv : normalizeCapacityRange (some ⟨requiredBytes, limitBytes⟩) with err | v
  · exact ⟨err, rfl⟩
  obtain ⟨hr, hl, hz, -⟩ := normalizeCapacityRange_eq_ok.1 hv
  omega

theorem mem_capacitySteps {n : ℤ} (h0 : 0 < requiredBytes) (h : n ∈ capacitySteps ⟨requiredBytes, limitBytes⟩) :
    ¬(limitBytes ≠ 0 ∧ limitBytes < requiredBytes) ∧ n ∈ (roundUpTraced requiredBytes).steps := by
  simp only [capacitySteps, normalizeCapacityRangeTraced, h0.ne', false_and, if_false, if_neg (not_lt.2 h0.le)] at h
  split at h
  · cases h
  refine ⟨?_, fitRounded_range h⟩
  rintro ⟨hne, hlt⟩
  rw [fitRounded, if_pos ⟨by omega, hlt⟩] at h
  cases h

/-- A request that names a size and fits its limit comes to `RoundUp`. -/
theorem roundUpTraced_subset (h0 : 0 < requiredBytes) (hfits : ¬(limitBytes ≠ 0 ∧ limitBytes < requiredBytes)) :
    (roundUpTraced requiredBytes).steps ⊆ capacitySteps ⟨requiredBytes, limitBytes⟩ := by
  simp only [capacitySteps, normalizeCapacityRangeTraced, h0.ne', false_and, if_false, if_neg (not_lt.2 h0.le)]
  rw [if_neg (by omega), fitRounded, if_neg (by omega)]
  exact Traced.steps_subset_bind

theorem capacitySteps_limit {n : ℤ} (h0 : 0 < limitBytes) (h : n ∈ capacitySteps ⟨0, limitBytes⟩) : IsInt64 n := by
  obtain ⟨hunit, hmax, hint⟩ := constants
  have hdefault : defaultVolumeCapacityBytes = 1073741824 := rfl
  simp only [capacitySteps, normalizeCapacityRangeTraced, lt_irrefl, if_false, if_neg (not_lt.2 h0.le), true_and,
    if_neg h0.ne', if_true] at h
  rcases Traced.mem_steps_bind h with h | ⟨bytes, hbytes, h⟩
  · rw [requiredWithin_eq h0.le, hunit] at h
    unfold IsInt64
    split at h
    · simp only [List.mem_cons, List.not_mem_nil, or_false] at h
      omega
    · cases h
  -- the default is far below the size at which the sum wraps
  have hsmall := ((requiredWithin_eq_ok h0).1 hbytes).2
  rcases roundUpTraced_range (fitRounded_range h) with hn | ⟨hlast, -⟩
  · exact hn
  · omega

theorem capacitySteps_refused (h : requiredBytes < 0 ∨ limitBytes < 0 ∨ requiredBytes = 0 ∧ limitBytes = 0) :
    capacitySteps ⟨requiredBytes, limitBytes⟩ = [] := by
  simp only [capacitySteps, normalizeCapacityRangeTraced]
  split
  · rfl
  split
  · rfl
  split
  · rfl
  · omega

theorem capacitySteps_range {n : ℤ} (h : n ∈ capacitySteps ⟨requiredBytes, limitBytes⟩) :
    IsInt64 n ∨ requiredBytes = maxAllocatableBytes ∧ (n = maxInt64 + 1 ∨ n = -9223372036854775808 - 1) := by
  by_cases hrefused : requiredBytes < 0 ∨ limitBytes < 0 ∨ requiredBytes = 0 ∧ limitBytes = 0
  · rw [capacitySteps_refused hrefused] at h
    cases h
  by_cases hzero : requiredBytes = 0
  · subst hzero
    exact .inl (capacitySteps_limit (by omega) h)
  exact roundUpTraced_range (mem_capacitySteps (by omega) h).2

/-- **When nothing wraps.** -/
theorem capacitySteps_exact : (∀ n ∈ capacitySteps ⟨requiredBytes, limitBytes⟩, IsInt64 n) ↔
      requiredBytes ≠ maxAllocatableBytes ∨ limitBytes ≠ 0 ∧ limitBytes < requiredBytes := by
  obtain ⟨hunit, hmax, -⟩ := constants
  constructor
  · intro h
    by_contra hwraps
    rw [not_or, not_not] at hwraps
    obtain ⟨rfl, hrounds⟩ := hwraps
    have hwraps : maxAllocatableBytes + allocationUnitBytes ∈ (roundUpTraced maxAllocatableBytes).steps := by
      rw [roundUpTraced_eq (by omega) le_rfl]
      exact .head _
    exact absurd (h _ (roundUpTraced_subset (by omega) hrounds hwraps)) (by decide)
  · rintro (h | h) n hn
    · exact (capacitySteps_range hn).resolve_right fun hlast => h hlast.1
    · rcases capacitySteps_range hn with hn' | ⟨rfl, -⟩
      · exact hn'
      · exact absurd h (mem_capacitySteps (by omega) hn).1

/-- **Capacity negotiation is exact.** -/
theorem negotiation_exact (requiredBytes limitBytes : ℤ) : (0 < requiredBytes →
      ((∃ v, normalizeCapacityRange (some ⟨requiredBytes, limitBytes⟩) = .ok v) ↔
        0 ≤ limitBytes ∧ ∃ a, Serves requiredBytes limitBytes a) ∧
      ∀ v, normalizeCapacityRange (some ⟨requiredBytes, limitBytes⟩) = .ok v →
        IsLeast { a | Serves requiredBytes limitBytes a } v.2) ∧
    (requiredBytes = 0 → 0 < limitBytes →
      ((∃ v, normalizeCapacityRange (some ⟨requiredBytes, limitBytes⟩) = .ok v) ↔ allocationUnitBytes ≤ limitBytes) ∧
      ∀ v, normalizeCapacityRange (some ⟨requiredBytes, limitBytes⟩) = .ok v →
        0 < v.2 ∧ allocationUnitBytes ∣ v.2 ∧ v.2 ≤ limitBytes) ∧
    (requiredBytes < 0 ∨ limitBytes < 0 ∨ requiredBytes = 0 ∧ limitBytes = 0 →
      ∃ err, normalizeCapacityRange (some ⟨requiredBytes, limitBytes⟩) = .error err) ∧
    (∀ n ∈ capacitySteps ⟨requiredBytes, limitBytes⟩, IsInt64 n ∨
      requiredBytes = maxAllocatableBytes ∧ (n = maxInt64 + 1 ∨ n = -9223372036854775808 - 1)) ∧
    ((∀ n ∈ capacitySteps ⟨requiredBytes, limitBytes⟩, IsInt64 n) ↔
      requiredBytes ≠ maxAllocatableBytes ∨ limitBytes ≠ 0 ∧ limitBytes < requiredBytes) := by
  refine ⟨negotiation_required, ?_, negotiation_refused, fun n => capacitySteps_range, capacitySteps_exact⟩
  rintro rfl
  exact negotiation_limit

/-- Five bytes are given a unit. -/
theorem negotiation_exact_small : IsLeast { a | Serves 5 0 a } allocationUnitBytes ∧ ∀ n ∈ capacitySteps ⟨5, 0⟩, IsInt64 n := by
  obtain ⟨hrequired, -, -, -, hsteps⟩ := negotiation_exact 5 0
  exact ⟨(hrequired (by decide)).2 (5, allocationUnitBytes) rfl, hsteps.2 (.inl (by decide))⟩

/-- For the largest size, which is allocated as it is, the sum leaves the range. -/
theorem largest_sum_wraps :
    normalizeCapacityRange (some ⟨maxAllocatableBytes, 0⟩) = .ok (maxAllocatableBytes, maxAllocatableBytes) ∧
      ∃ n ∈ capacitySteps ⟨maxAllocatableBytes, 0⟩, ¬ IsInt64 n := by
  refine ⟨rfl, 9223372036854775808, ?_, ?_⟩
  · decide
  · decide

end Distort.Csi
