import Distort.Agent.Interface
import Distort.Capacity
import Distort.Go.Text

/-!
The volume manager of the kernel backend: `vol_partition.go`.

A volume is a GPT partition that carries the name of the volume.  The table is read back from what `parted` prints.
-/

namespace Distort.Agent.Parted

open Go Lib Proc

def partitionAlignmentBytes : ℤ := 1024 * 1024
def partitionPollCount : ℕ := 15

/-- `partedPartition`: the bytes from `start` to `stop`, both included. -/
structure Partition where
  number : ℤ
  start : ℤ
  stop : ℤ
  name : Str
  deriving DecidableEq

/-- `partedExtent`. -/
structure Extent where
  start : ℤ
  stop : ℤ
  deriving DecidableEq

/-- An error that may be a `partedCommandError`. -/
inductive PartedError where
  | command (args : List Str) (output : Str) (err : Err)
  | plain (err : Err)

def PartedError.toErr : PartedError → Err
  | .command args output err =>
    ⟨err.kind, sprintf "parted %s failed: %v; output: %s" [.str (join args " "), .str err.text, .str output]⟩
  | .plain err => err

variable [StdLib]

def runParted (args : List Str) : Proc (Except PartedError Str) :=
  (disk (.parted args)).check (fun failure => fail (.command args (trimSpace failure.1) failure.2)) done

def isUnrecognizedDiskLabel : PartedError → Bool
  | .command _ output err =>
    let detail := toLower (output ++ str " " ++ err.text)
    contains detail "unrecognised disk label" || contains detail "unrecognized disk label"
  | .plain _ => false

/-! ### What `parted` prints -/

def parseByteField (value : Str) : Option ℤ := parseInt (trimSuffix value "B")

/-- What a line of the table says; some say nothing. -/
def parseLine (row : Str) : Except Err (Option (Partition ⊕ Extent)) :=
  let line := trimSpace (trimSuffix row ";")
  if line = [] ∨ line = str "BYT" ∨ hasPrefix line "/" then .ok none
  else
    match line.splitOn 58 with
    | [_, start, stop, _, kind] =>
      if kind = str "free" then
        match parseByteField start, parseByteField stop with
        | some start, some stop => .ok (some (.inr ⟨start, stop⟩))
        | _, _ => .error (.errorf "parse free extent %q" [.str line])
      else .error (.errorf "parse partition table row %q" [.str line])
    | number :: start :: stop :: _ :: _ :: name :: _ :: _ =>
      match parseInt number, parseByteField start, parseByteField stop with
      | some number, some start, some stop =>
        if number < 1 then .error (.errorf "parse partition table row %q" [.str line])
        else .ok (some (.inl ⟨number, start, stop, name⟩))
      | _, _, _ => .error (.errorf "parse partition table row %q" [.str line])
    | _ => .error (.errorf "parse partition table row %q" [.str line])

/-- The loop over the lines. -/
def parseLines : List Str → Except Err (List Partition × List Extent)
  | [] => .ok ([], [])
  | line :: lines =>
    match parseLine line with
    | .error err => .error err
    | .ok none => parseLines lines
    | .ok (some (.inl p)) => (parseLines lines).map fun t => (p :: t.1, t.2)
    | .ok (some (.inr e)) => (parseLines lines).map fun t => (t.1, e :: t.2)

def parsePartedTable (output : Str) : Except Err (List Partition × List Extent) := parseLines (output.splitOn 10)

def readPartedTable (devicePath : Str) (includeFree : Bool) : Proc (Except PartedError (List Partition × List Extent)) :=
  let args := [str "-m", str "-s", devicePath, str "unit", str "B", str "print"] ++ (if includeFree then [str "free"] else [])
  (runParted args).check fail fun out =>
  .ret ((parsePartedTable out).mapError .plain)

/-! ### Where a partition goes -/

section

omit [StdLib]

def alignUp (value alignment : ℤ) : ℤ := i64 ((i64 (i64 (value + alignment) - 1)).tdiv alignment * alignment)

/-- The loop over the extents. -/
def firstFit (sizeBytes : ℤ) : List Extent → Option (ℤ × ℤ)
  | [] => none
  | extent :: extents =>
    let start := alignUp extent.start partitionAlignmentBytes
    if start ≤ extent.stop ∧ i64 (sizeBytes - 1) ≤ i64 (extent.stop - start) then
      some (start, i64 (i64 (start + sizeBytes) - 1))
    else firstFit sizeBytes extents

def selectFreeExtent (extents : List Extent) (sizeBytes : ℤ) : Except Err (ℤ × ℤ) :=
  if sizeBytes ≤ 0 then .error (.errorf "partition size must be positive, got %d" [.int sizeBytes])
  else
    match firstFit sizeBytes extents with
    | some range => .ok range
    | none => .error (.errorf "no free extent can satisfy a %d-byte partition" [.int sizeBytes])

/-- The search from a number on; as many numbers as are used may have to be passed. -/
def lowestFrom (used : List ℤ) : ℕ → ℤ → ℤ
  | 0, number => number
  | steps + 1, number => if number ∈ used then lowestFrom used steps (number + 1) else number

def lowestAvailablePartitionNumber (partitions : List Partition) : ℤ :=
  lowestFrom (partitions.map Partition.number) partitions.length 1

def partitionsNamed (partitions : List Partition) (name : Str) : List Partition :=
  partitions.filter fun p => p.name = name

def partitionCapacity (p : Partition) : Except Err ℤ :=
  if p.start < 0 ∨ p.stop < p.start then
    .error (.errorf "partition p%d has invalid boundaries %dB-%dB" [.int p.number, .int p.start, .int p.stop])
  else .ok (i64 (i64 (p.stop - p.start) + 1))

def partitionPath (devicePath : Str) (number : ℤ) : Str := devicePath ++ str "p" ++ itoa number

def partitionNumberFromPath (devicePath backendVolumeID : Str) : Except Err ℤ :=
  match cutPrefix backendVolumeID (devicePath ++ str "p") with
  | (_, false) =>
    .error (.errorf "backend volume %q does not belong to device %q" [.str backendVolumeID, .str devicePath])
  | (rest, true) =>
    match parseInt rest with
    | some number =>
      if number < 1 ∨ clean backendVolumeID ≠ backendVolumeID then
        .error (.errorf "backend volume %q has no valid partition number" [.str backendVolumeID])
      else .ok number
    | none => .error (.errorf "backend volume %q has no valid partition number" [.str backendVolumeID])

/-- The attempts that are left to see the device of a partition. -/
def pollPartition (path : Str) : ℕ → Proc (Except Err Unit)
  | 0 => fail (.errorf "partition device %s did not appear after %d attempts" [.str path, .int partitionPollCount])
  | attempts + 1 =>
    disk (.stat path) >>= fun info =>
    match info with
    | .ok _ => done ()
    | .error _ =>
      select >>= fun tick =>
      match tick with
      | .done err => fail err
      | _ => pollPartition path attempts

def waitForPartition (path : Str) : Proc (Except Err Unit) := pollPartition path partitionPollCount

end

/-! ### The methods -/

omit [StdLib] in
/-- Runs with the lock of the device. -/
def withLock {α : Type} (devicePath : Str) (p : Proc α) : Proc α :=
  lock devicePath >>= fun _ => p >>= fun r => unlock devicePath >>= fun _ => .ret r

def label (devicePath : Str) : Proc (Except Err Unit) :=
  (disk (.wipefs devicePath)).check
    (fun failure => fail ⟨failure.2.kind, sprintf "wipe signatures from %s: %w; output: %s"
      [.str devicePath, .str failure.2.text, .str (trimSpace failure.1)]⟩) fun _ =>
  (runParted [str "-s", devicePath, str "mklabel", str "gpt"]).check (fun err => fail err.toErr) fun _ =>
  (readPartedTable devicePath false).check
    (fun err => fail (.wrapf "verify GPT label on %s: %w" [.str devicePath] err.toErr)) fun _ => done ()

def setupStorage (devicePath _deviceName : Str) : Proc (Except Err Unit) :=
  withLock devicePath <|
    readPartedTable devicePath false >>= fun table =>
    match table with
    | .ok _ => done ()
    | .error err =>
      if !isUnrecognizedDiskLabel err then
        fail (.wrapf "inspect partition table on %s: %w" [.str devicePath] err.toErr)
      else label devicePath

section

omit [StdLib]

/-- The identity of a volume, once its device is there. -/
def identify (devicePath volumeName : Str) (number capacityBytes : ℤ) : Proc (Except Err VolumeIdentity) :=
  (waitForPartition (partitionPath devicePath number)).check fail fun _ =>
  done { backendVolumeID := partitionPath devicePath number, capacityBytes, volumeName }

/-- A partition that has the name already. -/
def reuse (devicePath volumeName : Str) (allocatedBytes : ℤ) (existing : Partition) : Proc (Except Err VolumeIdentity) :=
  match partitionCapacity existing with
  | .error err => fail err
  | .ok capacityBytes =>
    if capacityBytes ≠ allocatedBytes then
      fail (.errorf "existing partition p%d owned by %q has capacity %d bytes, expected %d bytes"
        [.int existing.number, .str volumeName, .int capacityBytes, .int allocatedBytes])
    else identify devicePath volumeName existing.number capacityBytes

/-- The comparison of a new partition with what was asked for. -/
def verify (devicePath volumeName : Str) (allocatedBytes partitionNumber start stop : ℤ) (created : List Partition) :
    Proc (Except Err VolumeIdentity) :=
  match created with
  | [p] =>
    if p.number ≠ partitionNumber then
      fail (.errorf "partition-number allocation raced: created p%d for %q, expected reusable p%d"
        [.int p.number, .str volumeName, .int partitionNumber])
    else if p.start ≠ start ∨ p.stop ≠ stop then
      fail (.errorf "partition p%d boundaries are %dB-%dB after creation, expected %dB-%dB"
        [.int partitionNumber, .int p.start, .int p.stop, .int start, .int stop])
    else
      match partitionCapacity p with
      | .error err => fail err
      | .ok capacityBytes =>
        if capacityBytes ≠ allocatedBytes then
          fail (.errorf "partition p%d capacity is %d bytes after creation, expected %d bytes"
            [.int partitionNumber, .int capacityBytes, .int allocatedBytes])
        else identify devicePath volumeName partitionNumber capacityBytes
  | _ => fail (.errorf "partition table contains %d partitions owned by volume %q after creation"
      [.int created.length, .str volumeName])

end

/-- A new partition. -/
def carve (devicePath volumeName : Str) (allocatedBytes : ℤ) (partitions : List Partition) (freeExtents : List Extent) :
    Proc (Except Err VolumeIdentity) :=
  let partitionNumber := lowestAvailablePartitionNumber partitions
  match selectFreeExtent freeExtents allocatedBytes with
  | .error err => fail err
  | .ok (start, stop) =>
    (runParted [str "-s", str "-a", str "optimal", devicePath, str "mkpart", volumeName, itoa start ++ str "B",
      itoa stop ++ str "B"]).check (fun err => fail err.toErr) fun _ =>
    (readPartedTable devicePath false).check (fun err => fail err.toErr) fun table =>
    verify devicePath volumeName allocatedBytes partitionNumber start stop (partitionsNamed table.1 volumeName)

def createVolume (devicePath _deviceName volumeName : Str) (sizeBytes : ℤ) : Proc (Except Err VolumeIdentity) :=
  withLock devicePath <|
    match Capacity.roundUp sizeBytes with
    | .error err => fail err
    | .ok allocatedBytes =>
      (readPartedTable devicePath true).check (fun err => fail err.toErr) fun table =>
      match partitionsNamed table.1 volumeName with
      | [] => carve devicePath volumeName allocatedBytes table.1 table.2
      | [existing] => reuse devicePath volumeName allocatedBytes existing
      | _ => fail (.errorf "multiple physical partitions claim ownership by volume %q" [.str volumeName])

/-- `rm` of the partition that is to go. -/
def removePartition (devicePath : Str) (target : Partition) : Proc (Except Err Unit) :=
  (runParted [str "-s", devicePath, str "rm", itoa target.number]).check (fun err => fail err.toErr) fun _ => done ()

def deleteVolume (devicePath _deviceName volumeName : Str) (identity : VolumeIdentity) : Proc (Except Err Unit) :=
  withLock devicePath <|
    (readPartedTable devicePath false).check (fun err => fail err.toErr) fun table =>
    if identity.backendVolumeID ≠ [] then
      match partitionNumberFromPath devicePath identity.backendVolumeID with
      | .error err => fail err
      | .ok number =>
        match table.1.find? fun p => p.number = number with
        | none => done ()
        | some target =>
          if target.name ≠ volumeName then
            fail (.errorf "refusing to delete %s: partition p%d is owned by %q, not %q"
              [.str identity.backendVolumeID, .int number, .str target.name, .str volumeName])
          else removePartition devicePath target
    else
      match partitionsNamed table.1 volumeName with
      | [] => done ()
      | [target] => removePartition devicePath target
      | matches' => fail (.errorf "refusing ambiguous deletion: %d partitions are owned by %q"
          [.int matches'.length, .str volumeName])

/-- `PartedVolumeManager`. -/
def volumeManager : VolumeManager where
  name := "parted"
  setupStorage := setupStorage
  createVolume := createVolume
  deleteVolume := deleteVolume

end Distort.Agent.Parted
