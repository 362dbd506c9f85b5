import Distort.Go.Basic

/-!
Allocation units: the package `capacity`.
-/

namespace Distort.Capacity

open Go

def allocationUnitBytes : ℤ := 4 * 1024 * 1024

/-- The largest `int64` that is a whole number of units. -/
def maxAllocatableBytes : ℤ := maxInt64.tdiv allocationUnitBytes * allocationUnitBytes

/-- `RoundUp`, operation by operation.  The first sum wraps for the largest size, and wraps back with the next step. -/
def roundUpTraced (bytes : ℤ) : Traced ℤ :=
  if bytes ≤ 0 then .fail (.errorf "capacity must be positive, got %d" [.int bytes])
  else if bytes > maxAllocatableBytes then
    .fail (.errorf "capacity %d exceeds maximum allocatable size %d" [.int bytes, .int maxAllocatableBytes])
  else do
    let sum ← .op (bytes + allocationUnitBytes)
    let dividend ← .op (sum - 1)
    let quotient ← .op (dividend.tdiv allocationUnitBytes)
    .op (quotient * allocationUnitBytes)

/-- `RoundUp`: the smallest whole number of units that is not below `bytes`. -/
def roundUp (bytes : ℤ) : Except Err ℤ := (roundUpTraced bytes).result

theorem constants : allocationUnitBytes = 4194304 ∧ maxAllocatableBytes = 9223372036850581504 ∧
    maxInt64 = 9223372036854775807 := by decide

theorem i64_add_sub_one {bytes : ℤ} (h0 : 0 < bytes) (h1 : bytes ≤ maxAllocatableBytes) :
    i64 (i64 (bytes + allocationUnitBytes) - 1) = bytes + allocationUnitBytes - 1 := by
  obtain ⟨hunit, hmax, hint⟩ := constants
  have hwrap : i64 (i64 (bytes + allocationUnitBytes) - 1) = i64 (bytes + allocationUnitBytes - 1) :=
    Int.bmod_sub_bmod
  rw [hwrap, i64_of_range (by omega) (by omega)]

theorem roundUpTraced_eq {bytes : ℤ} (h0 : 0 < bytes) (h1 : bytes ≤ maxAllocatableBytes) : roundUpTraced bytes =
      let quotient := (bytes + allocationUnitBytes - 1) / allocationUnitBytes
      ⟨[bytes + allocationUnitBytes, i64 (bytes + allocationUnitBytes) - 1, quotient, quotient * allocationUnitBytes],
        .ok (quotient * allocationUnitBytes)⟩ := by
  obtain ⟨hunit, hmax, hint⟩ := constants
  have hdiv : (bytes + allocationUnitBytes - 1).tdiv allocationUnitBytes =
      (bytes + allocationUnitBytes - 1) / allocationUnitBytes := Int.tdiv_eq_ediv_of_nonneg (by omega)
  have hquotient : i64 ((bytes + allocationUnitBytes - 1) / allocationUnitBytes) =
      (bytes + allocationUnitBytes - 1) / allocationUnitBytes :=
    i64_of_range (by rw [hunit]; omega) (by rw [hunit]; omega)
  have hproduct : i64 ((bytes + allocationUnitBytes - 1) / allocationUnitBytes * allocationUnitBytes) =
      (bytes + allocationUnitBytes - 1) / allocationUnitBytes * allocationUnitBytes :=
    i64_of_range (by rw [hunit]; omega) (by rw [hunit]; omega)
  rw [roundUpTraced, if_neg (not_le.2 h0), if_neg (not_lt.2 h1)]
  simp only [bind, Traced.op, i64_add_sub_one h0 h1, hdiv, hquotient, hproduct, List.cons_append, List.nil_append]

variable {bytes allocated : ℤ}

/-- **What `RoundUp` returns**: the least multiple of the unit that is not below, without any wrap. -/
theorem roundUp_eq_ok : roundUp bytes = .ok allocated ↔
    0 < bytes ∧ bytes ≤ maxAllocatableBytes ∧
      allocated = (bytes + allocationUnitBytes - 1) / allocationUnitBytes * allocationUnitBytes := by
  by_cases h0 : bytes ≤ 0
  · rw [roundUp, roundUpTraced, if_pos h0]
    simp only [Traced.fail, reduceCtorEq, false_iff, not_and]
    omega
  by_cases h1 : bytes > maxAllocatableBytes
  · rw [roundUp, roundUpTraced, if_neg h0, if_pos h1]
    simp only [Traced.fail, reduceCtorEq, false_iff, not_and]
    omega
  · rw [roundUp, roundUpTraced_eq (not_le.1 h0) (not_lt.1 h1)]
    simp only [Except.ok.injEq, not_le.1 h0, not_lt.1 h1, true_and, eq_comm]

theorem roundUp_pos (h : roundUp bytes = .ok allocated) : 0 < allocated ∧ allocated ≤ maxInt64 := by
  obtain ⟨hunit, hmax, hint⟩ := constants
  obtain ⟨h0, h1, rfl⟩ := roundUp_eq_ok.1 h
  rw [hunit]
  omega

theorem unit_le_roundUp (h : roundUp bytes = .ok allocated) : allocationUnitBytes ≤ allocated := by
  obtain ⟨h0, -, rfl⟩ := roundUp_eq_ok.1 h
  have hunit := constants.1
  rw [hunit]
  omega

theorem roundUp_mono {a b a' b' : ℤ} (ha : roundUp a = .ok a') (hb : roundUp b = .ok b') (h : a ≤ b) : a' ≤ b' := by
  obtain ⟨-, -, rfl⟩ := roundUp_eq_ok.1 ha
  obtain ⟨-, -, rfl⟩ := roundUp_eq_ok.1 hb
  have hunit := constants.1
  rw [hunit]
  omega

end Distort.Capacity
