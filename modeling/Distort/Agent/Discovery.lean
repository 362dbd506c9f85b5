import Distort.Capacity

/-!
The capacity of a namespace, as discovery reports it: `nvme_discovery.go`.
-/

namespace Distort.Agent

open Go

def managedCapacityPercent : ℤ := 99

def checkedCapacityBytes (name : Str) (numBlocks blockSize : ℤ) : Except Err ℤ :=
  if numBlocks ≤ 0 ∨ blockSize ≤ 0 then
    .error (.errorf "%s has invalid capacity metadata: %d blocks of %d bytes" [.str name, .int numBlocks, .int blockSize])
  else if numBlocks > maxInt64.tdiv blockSize then .error (.errorf "%s capacity overflows int64" [.str name])
  else .ok (i64 (numBlocks * blockSize))

/-- **The product is exact**, and refused where it is none or too large. -/
theorem checkedCapacityBytes_eq_ok {name : Str} {numBlocks blockSize bytes : ℤ} :
    checkedCapacityBytes name numBlocks blockSize = .ok bytes ↔
      0 < numBlocks ∧ 0 < blockSize ∧ numBlocks * blockSize ≤ maxInt64 ∧ bytes = numBlocks * blockSize := by
  unfold checkedCapacityBytes
  by_cases hpos : numBlocks ≤ 0 ∨ blockSize ≤ 0
  · simp only [if_pos hpos, reduceCtorEq, false_iff, not_and]
    omega
  obtain ⟨hblocks, hsize⟩ : 0 < numBlocks ∧ 0 < blockSize := by omega
  have hguard : numBlocks > maxInt64.tdiv blockSize ↔ ¬ numBlocks * blockSize ≤ maxInt64 := by
    rw [Int.tdiv_eq_ediv_of_nonneg (by decide), gt_iff_lt, ← not_le, Int.le_ediv_iff_mul_le hsize]
  rw [if_neg hpos]
  by_cases hmax : numBlocks * blockSize ≤ maxInt64
  · have hprod : 0 < numBlocks * blockSize := Int.mul_pos hblocks hsize
    rw [if_neg fun h => hguard.1 h hmax, i64_of_range (by omega) hmax, Except.ok.injEq]
    exact ⟨fun h => ⟨hblocks, hsize, hmax, h.symm⟩, fun h => h.2.2.2.symm⟩
  · simp only [if_pos (hguard.2 hmax), reduceCtorEq, false_iff, not_and]
    exact fun _ _ h => absurd h hmax

/-- One percent is kept for the metadata of the disk, and only whole units are offered. -/
def allocatableNamespaceBytes (name : Str) (rawBytes : ℤ) : Except Err ℤ :=
  if rawBytes ≤ 0 then .error (.errorf "%s has invalid raw capacity %d" [.str name, .int rawBytes])
  else
    let usableBytes := i64 (i64 (rawBytes.tdiv 100 * managedCapacityPercent) +
      (i64 (rawBytes.tmod 100 * managedCapacityPercent)).tdiv 100)
    let usableBytes := i64 (usableBytes.tdiv Capacity.allocationUnitBytes * Capacity.allocationUnitBytes)
    if usableBytes ≤ 0 then
      .error (.errorf "%s has no allocatable capacity after metadata reservation" [.str name])
    else .ok usableBytes

/-- **What is offered**: the most units that ninety-nine percent hold, without any wrap. -/
theorem allocatableNamespaceBytes_eq_ok {name : Str} {rawBytes usable : ℤ} (hraw : rawBytes ≤ maxInt64) :
    allocatableNamespaceBytes name rawBytes = .ok usable ↔
      0 < usable ∧ usable = 99 * rawBytes / 100 / 4194304 * 4194304 := by
  have hunit : Capacity.allocationUnitBytes = 4194304 := rfl
  have hpercent : managedCapacityPercent = 99 := rfl
  have hint : maxInt64 = 9223372036854775807 := rfl
  unfold allocatableNamespaceBytes
  rw [hunit, hpercent]
  by_cases hpos : rawBytes ≤ 0
  · rw [if_pos hpos]
    simp only [reduceCtorEq, false_iff, not_and]
    omega
  · have hsum : i64 (i64 (rawBytes.tdiv 100 * 99) + (i64 (rawBytes.tmod 100 * 99)).tdiv 100) = 99 * rawBytes / 100 := by
      rw [Int.tdiv_eq_ediv_of_nonneg (by omega), Int.tmod_eq_emod_of_nonneg (by omega),
        i64_of_range (n := rawBytes / 100 * 99) (by omega) (by omega),
        i64_of_range (n := rawBytes % 100 * 99) (by omega) (by omega),
        Int.tdiv_eq_ediv_of_nonneg (by omega), i64_of_range (by omega) (by omega)]
      omega
    have hunits : i64 ((99 * rawBytes / 100).tdiv 4194304 * 4194304) = 99 * rawBytes / 100 / 4194304 * 4194304 := by
      rw [Int.tdiv_eq_ediv_of_nonneg (by omega), i64_of_range (by omega) (by omega)]
    rw [if_neg hpos, hsum]
    dsimp only
    rw [hunits]
    split
    · simp only [reduceCtorEq, false_iff, not_and]
      omega
    · simp only [Except.ok.injEq]
      omega

end Distort.Agent
