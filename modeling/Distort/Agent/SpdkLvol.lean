import Distort.Agent.Discovery
import Distort.Agent.Interface

/-!
Volumes as SPDK logical volumes: `vol_spdk_lvol.go`.
-/

namespace Distort.Agent.SpdkLvol

open Go Lib Proc

def mebibyteBytes : ℤ := 1024 * 1024

def listSPDKLvstores : Proc (Except Err (List Lvstore)) :=
  (rpc .bdevLvolGetLvstores).check
    (fun err => fail (.wrapf "failed to list SPDK logical volume stores: %w" [] err)) done

def listSPDKBdevs : Proc (Except Err (List Bdev)) :=
  (rpc (.bdevGetBdevs none)).check (fun err => fail (.wrapf "failed to list SPDK bdevs: %w" [] err)) done

def lvstoreForBaseBdev (stores : List Lvstore) (baseBdev : Str) : Except Err Lvstore :=
  match stores.filter fun store => store.baseBdev = baseBdev with
  | [store] => .ok store
  | found =>
    .error (.errorf "found %d SPDK logical volume stores for base bdev %q, want exactly one"
      [.int found.length, .str baseBdev])

def setupStorage (_devicePath deviceName : Str) : Proc (Except Err Unit) :=
  listSPDKLvstores.check fail fun stores =>
  if stores.any fun store => store.baseBdev = deviceName then done ()
  else rpc (.bdevLvolCreateLvstore deviceName (str "lvs_" ++ deviceName))

/-- The name under which a volume of a store is listed. -/
def lvolAlias (store : Str) (volumeName : Str) : Str := store ++ str "/" ++ volumeName

/-- The bdev has the name, or the name among its aliases. -/
def named (bdev : Bdev) (name : Str) : Bool := bdev.name = name || bdev.aliases.contains name

def lvolIdentity (bdev : Bdev) (store : Lvstore) (volumeName : Str) (capacityBytes : ℤ) : VolumeIdentity where
  backendVolumeID := lvolAlias store.name volumeName
  capacityBytes := capacityBytes
  baseBdev := store.baseBdev
  volumeStoreName := store.name
  volumeStoreUUID := store.uuid
  volumeName := volumeName
  volumeUUID := if bdev.uuid = [] then bdev.name else bdev.uuid

/-- `spdkBdevCapacity`; the factors and the product are `uint64`. -/
def spdkBdevCapacity (bdev : Bdev) : Except Err ℤ :=
  if bdev.blockSize = 0 ∨ bdev.numBlocks = 0 then
    .error (.errorf "SPDK bdev %q has incomplete capacity metadata" [.str bdev.name])
  else if bdev.numBlocks > maxInt64.toNat / bdev.blockSize then
    .error (.errorf "SPDK bdev %q capacity overflows int64" [.str bdev.name])
  else .ok (i64 (bdev.blockSize * bdev.numBlocks % 18446744073709551616))

/-- **The product is exact**, and refused where it is none or too large. -/
theorem spdkBdevCapacity_eq_ok {bdev : Bdev} {bytes : ℤ} : spdkBdevCapacity bdev = .ok bytes ↔
    0 < bdev.blockSize ∧ 0 < bdev.numBlocks ∧ (bdev.blockSize * bdev.numBlocks : ℤ) ≤ maxInt64 ∧
      bytes = bdev.blockSize * bdev.numBlocks := by
  have hint : maxInt64 = 9223372036854775807 := rfl
  unfold spdkBdevCapacity
  by_cases hpos : bdev.blockSize = 0 ∨ bdev.numBlocks = 0
  · simp only [if_pos hpos, reduceCtorEq, false_iff, not_and]
    omega
  obtain ⟨hsize, hblocks⟩ : 0 < bdev.blockSize ∧ 0 < bdev.numBlocks := by omega
  have hguard : bdev.numBlocks > maxInt64.toNat / bdev.blockSize ↔
      ¬ (bdev.blockSize * bdev.numBlocks : ℤ) ≤ maxInt64 := by
    rw [gt_iff_lt, ← not_le, Nat.le_div_iff_mul_le hsize, mul_comm]
    omega
  rw [if_neg hpos]
  by_cases hmax : (bdev.blockSize * bdev.numBlocks : ℤ) ≤ maxInt64
  · have hprod : 0 < (bdev.blockSize * bdev.numBlocks : ℤ) := by exact_mod_cast Nat.mul_pos hsize hblocks
    rw [if_neg fun h => hguard.1 h hmax, Int.emod_eq_of_lt hprod.le (by omega), i64_of_range (by omega) hmax,
      Except.ok.injEq]
    exact ⟨fun h => ⟨hsize, hblocks, hmax, h.symm⟩, fun h => h.2.2.2.symm⟩
  · simp only [if_pos (hguard.2 hmax), reduceCtorEq, false_iff, not_and]
    exact fun _ _ h => absurd h hmax

/-- **Capacities are exact**: what is offered of a namespace is the most whole units in ninety-nine percent of it, and the
products of discovery and of the volume manager are those of the integers, whenever there is a result; and there is none
only if nothing is offered, a factor is not positive or the product does not fit. -/
theorem capacity_exact : (∀ name rawBytes, rawBytes ≤ maxInt64 → ∃ most,
      IsGreatest {m : ℤ | Capacity.allocationUnitBytes ∣ m ∧ m ≤ 99 * rawBytes / 100} most ∧
      ∀ usable, allocatableNamespaceBytes name rawBytes = .ok usable ↔ 0 < most ∧ usable = most) ∧
    (∀ name numBlocks blockSize bytes, checkedCapacityBytes name numBlocks blockSize = .ok bytes ↔
      0 < numBlocks ∧ 0 < blockSize ∧ numBlocks * blockSize ≤ maxInt64 ∧ bytes = numBlocks * blockSize) ∧
    ∀ bdev bytes, spdkBdevCapacity bdev = .ok bytes ↔
      0 < bdev.blockSize ∧ 0 < bdev.numBlocks ∧ (bdev.blockSize * bdev.numBlocks : ℤ) ≤ maxInt64 ∧
        bytes = bdev.blockSize * bdev.numBlocks := by
  have hunit : Capacity.allocationUnitBytes = 4194304 := rfl
  refine ⟨fun name rawBytes hraw => ⟨99 * rawBytes / 100 / 4194304 * 4194304, ⟨⟨?_, ?_⟩, ?_⟩, fun usable => ?_⟩,
    fun _ _ _ _ => checkedCapacityBytes_eq_ok, fun _ _ => spdkBdevCapacity_eq_ok⟩
  · exact ⟨_, mul_comm _ _⟩
  · omega
  · rintro m ⟨⟨k, rfl⟩, hle⟩
    rw [hunit] at hle ⊢
    omega
  · rw [allocatableNamespaceBytes_eq_ok hraw]
    constructor
    · rintro ⟨hpos, rfl⟩
      exact ⟨hpos, rfl⟩
    · rintro ⟨hpos, rfl⟩
      exact ⟨hpos, rfl⟩

/-- The largest raw size. -/
theorem capacity_exact_largest : maxInt64 ≤ maxInt64 ∧
    (∃ usable, 4194304 ≤ usable ∧ allocatableNamespaceBytes "nvme0n1" maxInt64 = .ok usable) ∧
    checkedCapacityBytes "nvme0n1" 18014398509481983 512 = .ok 9223372036854775296 := by
  refine ⟨le_rfl, ?_, (capacity_exact.2.1 _ _ _ _).2 (by decide)⟩
  obtain ⟨most, hmost, hoffered⟩ := capacity_exact.1 "nvme0n1" maxInt64 le_rfl
  have hle : 4194304 ≤ most := hmost.2 ⟨dvd_refl _, by decide⟩
  exact ⟨most, hle, (hoffered most).2 ⟨by omega, rfl⟩⟩

def findCreatedLvol (bdevs : List Bdev) (name uuid : Str) : Except Err Bdev :=
  match bdevs.filter fun b => (uuid ≠ [] && (b.name = uuid || b.uuid = uuid)) || named b name with
  | [bdev] => .ok bdev
  | found =>
    .error (.errorf "found %d SPDK lvol bdevs for alias %q and UUID %q, want exactly one"
      [.int found.length, .str name, .str uuid])

/-- The identity of a volume that is there, if it has the size that is wanted. -/
def identityOf (what : String) (bdev : Bdev) (store : Lvstore) (volumeName : Str) (allocatedBytes : ℤ) :
    Except Err VolumeIdentity := do
  let actualBytes ← spdkBdevCapacity bdev
  if actualBytes ≠ allocatedBytes then
    throw (.errorf (what ++ " SPDK lvol %q has capacity %d bytes, want %d")
      [.str (lvolAlias store.name volumeName), .int actualBytes, .int allocatedBytes])
  return lvolIdentity bdev store volumeName actualBytes

/-- The volume does not exist yet. -/
def createNew (store : Lvstore) (volumeName : Str) (allocatedBytes : ℤ) : Proc (Except Err VolumeIdentity) :=
  (rpc (.bdevLvolCreate store.name volumeName (allocatedBytes.tdiv mebibyteBytes))).check fail fun uuid =>
  listSPDKBdevs.check
    (fun err => fail (.wrapf "verify SPDK lvol %q after creation: %w" [.str (lvolAlias store.name volumeName)] err))
    fun bdevs =>
  match findCreatedLvol bdevs (lvolAlias store.name volumeName) uuid with
  | .error err => fail err
  | .ok created =>
    match identityOf "created" created store volumeName allocatedBytes with
    | .error err => fail err
    | .ok identity => done (if uuid ≠ [] then { identity with volumeUUID := uuid } else identity)

def createVolume (_devicePath deviceName volumeName : Str) (sizeBytes : ℤ) : Proc (Except Err VolumeIdentity) :=
  match Capacity.roundUp sizeBytes with
  | .error err => fail err
  | .ok allocatedBytes =>
    listSPDKLvstores.check fail fun stores =>
    match lvstoreForBaseBdev stores deviceName with
    | .error err => fail err
    | .ok store =>
      let name := lvolAlias store.name volumeName
      listSPDKBdevs.check
        (fun err => fail (.wrapf "list SPDK bdevs before creating %q: %w" [.str name] err)) fun bdevs =>
      match findCreatedLvol bdevs name [] with
      | .ok existing => .ret (identityOf "existing" existing store volumeName allocatedBytes)
      | .error _ =>
        if (bdevs.filter fun b => named b name).length > 1 then
          fail (.errorf "multiple SPDK lvol bdevs use alias %q" [.str name])
        else createNew store volumeName allocatedBytes

/-! ### Deletion -/

/-- One way to find the volume: what it is called, and the positions that it finds. -/
structure LvolSelector where
  name : String
  found : List ℕ

def matchingBdevs (bdevs : List Bdev) (p : Bdev → Bool) : List ℕ :=
  (bdevs.zipIdx.filter fun b => p b.1).map Prod.snd

/-- What is recorded about the volume, as ways to find it. -/
def persistedSelectors (bdevs : List Bdev) (identity : VolumeIdentity) : List LvolSelector :=
  let name := lvolAlias identity.volumeStoreName identity.volumeName
  (if identity.volumeUUID ≠ [] then
    [⟨"lvol UUID", matchingBdevs bdevs fun b => b.name = identity.volumeUUID || b.uuid = identity.volumeUUID⟩]
  else []) ++
  (if identity.backendVolumeID ≠ [] then
    [⟨"backend volume ID", matchingBdevs bdevs fun b => named b identity.backendVolumeID⟩]
  else []) ++
  (if identity.volumeStoreName ≠ [] ∧ identity.volumeName ≠ [] ∧ name ≠ identity.backendVolumeID then
    [⟨"lvstore/name alias", matchingBdevs bdevs fun b => named b name⟩]
  else [])

/-- The last resort, if nothing is recorded. -/
def nameSelector (bdevs : List Bdev) (volumeName : Str) : LvolSelector :=
  ⟨"logical volume name", matchingBdevs bdevs fun b =>
    b.name = volumeName || b.aliases.any fun a => a = volumeName || hasSuffix a (str "/" ++ volumeName)⟩

def selectorsFor (bdevs : List Bdev) (volumeName : Str) (identity : VolumeIdentity) : List LvolSelector :=
  match persistedSelectors bdevs identity with
  | [] => if volumeName ≠ [] then [nameSelector bdevs volumeName] else []
  | selectors => selectors

/-- The loop over the selectors: the position found so far, and whether one of them found nothing. -/
def combineSelectors : List LvolSelector → Option ℕ → Bool → Except Err (Option ℕ × Bool)
  | [], foundIndex, missing => .ok (foundIndex, missing)
  | selector :: rest, foundIndex, missing =>
    match selector.found with
    | [] => combineSelectors rest foundIndex true
    | [i] =>
      if foundIndex.any (· ≠ i) then
        .error (.errorf "persisted SPDK identifiers resolve to different lvols" [])
      else combineSelectors rest (some i) missing
    | found =>
      .error (.errorf "%s resolves to %d SPDK lvols" [.str (str selector.name), .int found.length])

def resolveLvolForDeletion (bdevs : List Bdev) (volumeName : Str) (identity : VolumeIdentity) :
    Except Err (Option Bdev) :=
  match selectorsFor bdevs volumeName identity with
  | [] => .error (.errorf "SPDK lvol cleanup has no stable identifier" [])
  | selectors =>
    match combineSelectors selectors none false with
    | .error err => .error err
    | .ok (none, _) => .ok none
    | .ok (some i, missing) =>
      if missing then
        .error (.errorf "only some persisted SPDK identifiers resolve; refusing unsafe lvol deletion" [])
      else .ok bdevs[i]?

/-- The loop of `validateLvolOwnership`: the store that the recorded identifiers stand for. -/
def ownerStore (identity : VolumeIdentity) : List Lvstore → Option Lvstore → Except Err (Option Lvstore)
  | [], store => .ok store
  | s :: stores, store =>
    if (identity.volumeStoreUUID ≠ [] ∧ s.uuid = identity.volumeStoreUUID) ∨
        (identity.volumeStoreName ≠ [] ∧ s.name = identity.volumeStoreName) then
      if store.any fun t => t.uuid ≠ s.uuid then
        .error (.errorf "persisted lvstore identifiers resolve to different stores" [])
      else ownerStore identity stores (some s)
    else ownerStore identity stores store

def validateLvolOwnership (candidate : Bdev) (stores : List Lvstore) (identity : VolumeIdentity) : Except Err Unit :=
  match ownerStore identity stores none with
  | .error err => .error err
  | .ok none =>
    if identity.volumeStoreUUID ≠ [] ∨ identity.volumeStoreName ≠ [] then
      .error (.errorf "persisted SPDK lvstore cannot be resolved while its lvol still exists" [])
    else .ok ()
  | .ok (some store) =>
    if identity.volumeStoreUUID ≠ [] ∧ store.uuid ≠ identity.volumeStoreUUID then
      .error (.errorf "SPDK lvstore UUID does not match persisted identity" [])
    else if identity.volumeStoreName ≠ [] ∧ store.name ≠ identity.volumeStoreName then
      .error (.errorf "SPDK lvstore name does not match persisted identity" [])
    else if identity.baseBdev ≠ [] ∧ store.baseBdev ≠ identity.baseBdev then
      .error (.errorf "SPDK lvstore base bdev %q does not match persisted %q"
        [.str store.baseBdev, .str identity.baseBdev])
    else
      match candidate.lvol with
      | some uuid =>
        if uuid ≠ [] ∧ store.uuid ≠ uuid then
          .error (.errorf "SPDK lvol belongs to lvstore UUID %q, not %q" [.str uuid, .str store.uuid])
        else .ok ()
      | none => .ok ()

/-- The volume was found and is removed; that it is gone is checked. -/
def removeLvol (candidate : Bdev) (volumeName : Str) (identity : VolumeIdentity) : Proc (Except Err Unit) :=
  rpc (.bdevLvolDelete candidate.name) >>= fun deleted =>
  listSPDKBdevs.check
    (fun err => fail (.wrapf "verify SPDK lvol absence after deletion: %w" [] err)) fun bdevs =>
  match resolveLvolForDeletion bdevs volumeName identity with
  | .error err => fail err
  | .ok none => done ()
  | .ok (some _) =>
    match deleted with
    | .error err => fail (.wrapf "delete SPDK lvol %q: %w" [.str candidate.name] err)
    | .ok _ => fail (.errorf "SPDK lvol %q still exists after deletion" [.str candidate.name])

def deleteVolume (_devicePath _deviceName volumeName : Str) (identity : VolumeIdentity) : Proc (Except Err Unit) :=
  listSPDKLvstores.check fail fun stores =>
  listSPDKBdevs.check
    (fun err => fail (.wrapf "list SPDK bdevs before deleting %q: %w" [.str volumeName] err)) fun bdevs =>
  match resolveLvolForDeletion bdevs volumeName identity with
  | .error err => fail err
  | .ok none => done ()
  | .ok (some candidate) =>
    match validateLvolOwnership candidate stores identity with
    | .error err => fail err
    | .ok _ => removeLvol candidate volumeName identity

/-- `SPDKLvolManager`. -/
def manager : VolumeManager where
  name := "spdk-lvol"
  setupStorage := setupStorage
  createVolume := createVolume
  deleteVolume := deleteVolume

/-! ### The calls of the manager -/

section only

variable {P : Call → Prop}

theorem listSPDKLvstores_only (h : P (.rpc .bdevLvolGetLvstores)) : listSPDKLvstores.Only P :=
  Prog.Only.next (only_op h) only_done

theorem listSPDKBdevs_only (h : P (.rpc (.bdevGetBdevs none))) : listSPDKBdevs.Only P :=
  Prog.Only.next (only_op h) only_done

theorem setupStorage_only (h : P (.rpc .bdevLvolGetLvstores))
    (hcreate : ∀ bdev store, P (.rpc (.bdevLvolCreateLvstore bdev store))) (devicePath deviceName : Str) :
    (setupStorage devicePath deviceName).Only P := by
  refine (listSPDKLvstores_only h).next fun stores => ?_
  split
  · exact only_done ()
  · exact only_op (hcreate _ _)

variable (hP : ∀ c, P (.rpc c))
include hP

theorem createVolume_only (devicePath deviceName volumeName : Str) (sizeBytes : ℤ) :
    (createVolume devicePath deviceName volumeName sizeBytes).Only P := by
  have hnew : ∀ store allocatedBytes, (createNew store volumeName allocatedBytes).Only P := by
    intro store allocatedBytes
    refine .next (only_op (hP _)) fun uuid => ?_
    refine (listSPDKBdevs_only (hP _)).next fun bdevs => ?_
    split
    · exact only_fail _
    split
    · exact only_fail _
    · exact only_done _
  unfold createVolume
  split
  · exact only_fail _
  refine (listSPDKLvstores_only (hP _)).next fun stores => ?_
  split
  · exact only_fail _
  refine (listSPDKBdevs_only (hP _)).next fun bdevs => ?_
  split
  · trivial
  split
  · exact only_fail _
  · exact hnew _ _

theorem deleteVolume_only (devicePath deviceName volumeName : Str) (identity : VolumeIdentity) :
    (deleteVolume devicePath deviceName volumeName identity).Only P := by
  refine (listSPDKLvstores_only (hP _)).next fun stores => ?_
  refine (listSPDKBdevs_only (hP _)).next fun bdevs => ?_
  split
  · exact only_fail _
  · exact only_done ()
  split
  · exact only_fail _
  refine .bind (only_op (hP _)) fun deleted => (listSPDKBdevs_only (hP _)).next fun left => ?_
  split
  · exact only_fail _
  · exact only_done ()
  · split <;> exact only_fail _

end only

end Distort.Agent.SpdkLvol
