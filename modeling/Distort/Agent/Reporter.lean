import Mathlib.Data.List.DropRight
import Distort.Api.Calls
import Distort.Go.Encoding

/-!
Reporting the drives of a node: `reportDevices` of `reporter.go`.

`via` is the reader of the reporter.  The model name and the NUMA node of a drive are only copied and are
left out.
-/

namespace Distort.Agent.Reporter

open Go Lib Lib.Kube Api Proc

def hardwareAvailableCondition : Str := "HardwareAvailable"

section names

variable [StdLib]

/-- A digit or a letter of the lower case. -/
def alphanumeric (b : UInt8) : Bool := (97 ≤ b && b ≤ 122) || (48 ≤ b && b ≤ 57)

/-- The loop over the node name, on what was written so far.  A rune of several bytes gives one separator, as
any run of bytes that are not alphanumeric does. -/
def readableLoop : Str → Str → Bool → Str
  | [], written, _ => written
  | b :: bs, written, lastSeparator =>
    let next :=
      if alphanumeric b then (written ++ [b], false)
      else if !lastSeparator then (written ++ str "-", true)
      else (written, true)
    if next.1.length ≥ 40 then next.1 else readableLoop bs next.1 next.2

/-- `strings.Trim(s, "-")`. -/
def trimDashes (s : Str) : Str := ((s.dropWhile (· = 45)).reverse.dropWhile (· = 45)).reverse

def deviceObjectName (nodeName serialNumber : Str) : Except Err Str :=
  if trimSpace nodeName = [] then .error (.errorf "node name is empty" [])
  else if trimSpace serialNumber = [] then .error (.errorf "serial number is empty" [])
  else
    let readable := trimDashes (readableLoop (toLower nodeName) [] false)
    let readable := if readable = [] then str "nvme" else readable
    .ok (readable ++ str "-" ++ hexEncode ((sha256 (nodeName ++ [0] ++ serialNumber)).take 16))

/-! ### Names -/

/-- Lower-case letters, digits and dashes, and no dash at either end. -/
def dnsLabel (s : Str) : Bool :=
  s.all (fun b => alphanumeric b || b = 45) && s.head?.any alphanumeric && s.getLast?.any alphanumeric

section

omit [StdLib]

theorem readableLoop_spec (bs : Str) {written : Str} {lastSeparator : Bool} (hlength : written.length < 40)
    (hall : ∀ b ∈ written, alphanumeric b = true ∨ b = 45) : (readableLoop bs written lastSeparator).length ≤ 40 ∧
      ∀ b ∈ readableLoop bs written lastSeparator, alphanumeric b = true ∨ b = 45 := by
  induction bs generalizing written lastSeparator with
  | nil => exact ⟨hlength.le, hall⟩
  | cons b bs ih =>
    -- at most one byte is written in a round
    have hnext : ∀ next : Str × Bool, next.1.length ≤ 40 → (∀ b ∈ next.1, alphanumeric b = true ∨ b = 45) →
        (if next.1.length ≥ 40 then next.1 else readableLoop bs next.1 next.2).length ≤ 40 ∧
        ∀ b ∈ if next.1.length ≥ 40 then next.1 else readableLoop bs next.1 next.2, alphanumeric b = true ∨ b = 45 := by
      intro next hle hplain
      split
      · exact ⟨hle, hplain⟩
      · exact ih (by omega) hplain
    have hsnoc : ∀ c, alphanumeric c = true ∨ c = 45 → ∀ b ∈ written ++ [c], alphanumeric b = true ∨ b = 45 := by
      intro c hc b hb
      rcases List.mem_append.1 hb with hb | hb
      · exact hall b hb
      · rw [List.mem_singleton.1 hb]
        exact hc
    rw [readableLoop]
    refine hnext _ ?_ ?_
    · split
      · rw [List.length_append]
        exact hlength
      split
      · rw [List.length_append]
        exact hlength
      · exact hlength.le
    · split
      · exact hsnoc b (.inl ‹_›)
      split
      · exact hsnoc 45 (.inr rfl)
      · exact hall

theorem trimDashes_eq (s : Str) : trimDashes s = (s.dropWhile (· = 45)).rdropWhile (· = 45) := rfl

theorem trimDashes_part (s : Str) : trimDashes s <:+: s := by
  rw [trimDashes_eq]
  exact (List.rdropWhile_prefix _ _).isInfix.trans (List.dropWhile_suffix _).isInfix

theorem dnsLabel_trimDashes {s : Str} (hall : ∀ b ∈ s, alphanumeric b = true ∨ b = 45) (hne : trimDashes s ≠ []) :
    dnsLabel (trimDashes s) = true := by
  have hplain : ∀ b ∈ trimDashes s, alphanumeric b = true ∨ b = 45 := fun b hb => hall b ((trimDashes_part s).subset hb)
  have hfirst : (trimDashes s).head hne ≠ 45 := by
    have hpre : trimDashes s <+: s.dropWhile (· = 45) := List.rdropWhile_prefix ..
    rw [hpre.head hne]
    simpa using List.head_dropWhile_not _ (hpre.ne_nil hne)
  have hlast : (trimDashes s).getLast hne ≠ 45 :=
    fun h => List.rdropWhile_last_not (fun b => decide (b = 45)) _ hne (decide_eq_true h)
  simp only [dnsLabel, Bool.and_eq_true, List.all_eq_true, Bool.or_eq_true, decide_eq_true_eq]
  rw [List.head?_eq_some_head hne, List.getLast?_eq_some_getLast hne]
  exact ⟨⟨hplain, (hplain _ (List.head_mem hne)).resolve_right hfirst⟩,
    (hplain _ (List.getLast_mem hne)).resolve_right hlast⟩

theorem alphanumeric_hexEncode (m : List UInt8) : ∀ b ∈ hexEncode m, alphanumeric b = true := by
  have hall : ∀ n < 256, alphanumeric (hexDigit (UInt8.ofNat n >>> 4)) = true ∧
      alphanumeric (hexDigit (UInt8.ofNat n &&& 15)) = true := by
    decide +kernel
  intro b hb
  obtain ⟨c, -, hb⟩ := List.mem_flatMap.1 hb
  obtain ⟨hhi, hlo⟩ : alphanumeric (hexDigit (c >>> 4)) = true ∧ alphanumeric (hexDigit (c &&& 15)) = true := by
    simpa using hall c.toNat c.toNat_lt
  rcases List.mem_pair.1 hb with rfl | rfl
  · exact hhi
  · exact hlo

theorem dnsLabel_append {s t : Str} (hs : dnsLabel s = true) (ht : ∀ b ∈ t, alphanumeric b = true) (hne : t ≠ []) :
    dnsLabel (s ++ str "-" ++ t) = true := by
  simp only [dnsLabel, Bool.and_eq_true, List.all_eq_true, Bool.or_eq_true, decide_eq_true_eq] at hs ⊢
  obtain ⟨⟨hplain, hfirst⟩, -⟩ := hs
  refine ⟨⟨fun b hb => ?_, ?_⟩, ?_⟩
  · rcases List.mem_append.1 hb with hb | hb
    · rcases List.mem_append.1 hb with hb | hb
      · exact hplain b hb
      · exact .inr (List.mem_singleton.1 hb)
    · exact .inl (ht b hb)
  · cases s with
    | nil => simp at hfirst
    | cons b s => exact hfirst
  · rw [List.getLast?_append_of_ne_nil _ hne, List.getLast?_eq_some_getLast hne]
    exact ht _ (List.getLast_mem hne)

end

theorem deviceObjectName_eq_ok {nodeName serialNumber name : Str} (h : deviceObjectName nodeName serialNumber = .ok name) :
    ∃ readable, dnsLabel readable = true ∧ readable.length ≤ 40 ∧
      name = readable ++ str "-" ++ hexEncode ((sha256 (nodeName ++ [0] ++ serialNumber)).take 16) := by
  obtain ⟨hlength, hall⟩ : (readableLoop (toLower nodeName) [] false).length ≤ 40 ∧ _ :=
    readableLoop_spec (toLower nodeName) (by decide) nofun
  unfold deviceObjectName at h
  split at h
  · cases h
  split at h
  · cases h
  cases h
  by_cases hne : trimDashes (readableLoop (toLower nodeName) [] false) = []
  · exact ⟨str "nvme", by decide, by decide, by rw [if_pos hne]⟩
  · refine ⟨_, dnsLabel_trimDashes hall hne, ?_, by rw [if_neg hne]⟩
    exact (trimDashes_part _).length_le.trans hlength

/-- **Device names are labels of at most 73 bytes, and no two pairs share one** as long as the truncated digest tells the
two apart. -/
theorem deviceObjectName_sound : (∀ nodeName serialNumber, trimSpace nodeName ≠ [] → trimSpace serialNumber ≠ [] →
      ∃ name, deviceObjectName nodeName serialNumber = .ok name ∧ dnsLabel name = true ∧ name.length ≤ 73) ∧
    ∀ nodeName serialNumber nodeName' serialNumber' name, 0 ∉ nodeName → 0 ∉ nodeName' →
      ((sha256 (nodeName ++ [0] ++ serialNumber)).take 16 = (sha256 (nodeName' ++ [0] ++ serialNumber')).take 16 →
        nodeName ++ [0] ++ serialNumber = nodeName' ++ [0] ++ serialNumber') →
      deviceObjectName nodeName serialNumber = .ok name → deviceObjectName nodeName' serialNumber' = .ok name →
      nodeName = nodeName' ∧ serialNumber = serialNumber' := by
  have hdigits : ∀ m, (hexEncode ((sha256 m).take 16)).length = 32 := fun m => by
    rw [hexEncode_length, List.length_take, sha256_length]
    rfl
  constructor
  · intro nodeName serialNumber hnode hserial
    obtain ⟨name, hname⟩ : ∃ name, deviceObjectName nodeName serialNumber = .ok name :=
      ⟨_, by rw [deviceObjectName, if_neg hnode, if_neg hserial]⟩
    obtain ⟨readable, hlabel, hlength, rfl⟩ := deviceObjectName_eq_ok hname
    refine ⟨_, hname, dnsLabel_append hlabel (alphanumeric_hexEncode _) fun hnil => ?_, ?_⟩
    · have hlen := hdigits (nodeName ++ [0] ++ serialNumber)
      rw [hnil] at hlen
      cases hlen
    · rw [List.length_append, List.length_append, hdigits]
      exact Nat.add_le_add_right (Nat.add_le_add_right hlength 1) 32
  · intro nodeName serialNumber nodeName' serialNumber' name hnul hnul' hfree h h'
    obtain ⟨readable, -, -, rfl⟩ := deviceObjectName_eq_ok h
    obtain ⟨readable', -, -, heq⟩ := deviceObjectName_eq_ok h'
    have hhex := List.append_inj_right' heq (by rw [hdigits, hdigits])
    exact (PrefixCode.upTo (0 : UInt8)).split hnul hnul' (hfree (hexEncode_inj hhex))

/-- `pciAddressPattern`. -/
def pciAddressPattern (s : Str) : Bool :=
  let hex (b : UInt8) : Bool := (48 ≤ b && b ≤ 57) || (97 ≤ b && b ≤ 102)
  match s with
  | [a, b, c, d, s₁, e, f, s₂, g, h, s₃, i] =>
    [a, b, c, d, e, f, g, h].all hex && s₁ = 58 && s₂ = 58 && s₃ = 46 && 48 ≤ i && i ≤ 55
  | _ => false

def validateHardwareNVMe (device : HardwareNVMe) : Option Err :=
  if trimSpace device.name = [] then some (.errorf "device name is empty" [])
  else if trimSpace device.serialNumber = [] then some (.errorf "serial number is empty" [])
  else if !pciAddressPattern (toLower (trimSpace device.pciAddress)) then
    some (.errorf "PCI address %q is invalid" [.str device.pciAddress])
  else if device.totalBytes ≤ 0 then some (.errorf "capacity must be positive, got %d" [.int device.totalBytes])
  else none

end names

section

attribute [local instance] asciiLib

/-- Two drives of a node whose name needs cleaning. -/
theorem deviceObjectName_sound_cleaned :
    ∃ name, deviceObjectName "-Node_1." "S1" = .ok name ∧ dnsLabel name = true ∧ name.length ≤ 73 ∧
      deviceObjectName "-Node_1." "S2" ≠ .ok name := by
  obtain ⟨name, hname, hlabel, hlength⟩ := deviceObjectName_sound.1 "-Node_1." "S1" (by decide) (by decide)
  refine ⟨name, hname, hlabel, hlength, fun hsame => ?_⟩
  have hpair := deviceObjectName_sound.2 "-Node_1." "S1" "-Node_1." "S2" name (by decide) (by decide)
    (fun heq => absurd heq (by decide +kernel)) hname hsame
  exact absurd hpair.2 (by decide)

end

/-! ### Reports -/

/-- What the agent says of the presence of a drive. -/
def hardwareAvailable (device : NVMeDevice) (found : Bool) : Condition where
  type := hardwareAvailableCondition
  status := if found then .true else .false
  observedGeneration := device.metadata.generation
  reason := if found then "DeviceDiscovered" else "DeviceNotDiscovered"
  message := if found then "The reporting agent discovered the NVMe device"
    else "The reporting agent no longer discovers the NVMe device"

/-- The status with the condition. -/
def withCondition (status : NVMeDeviceStatus) (condition : Condition) : NVMeDeviceStatus :=
  { status with conditions := setStatusCondition status.conditions condition }

/-- A new device is available with all its capacity. -/
def initialized (device : NVMeDevice) : NVMeDevice :=
  { device with
    status := withCondition { device.status with state := .available, freeCapacity := device.spec.totalCapacity }
      (hardwareAvailable device true) }

/-- A device that was unavailable is available or claimed again. -/
def returned (device : NVMeDevice) : NVMeDevice :=
  { device with
    status := withCondition { device.status with
      state :=
        if device.status.state = .unavailable then
          if device.status.claimRef = none then .available else .claimed
        else device.status.state }
      (hardwareAvailable device true) }

def missing (device : NVMeDevice) : NVMeDevice :=
  { device with status := withCondition { device.status with state := .unavailable } (hardwareAvailable device false) }

/-- What a pass has counted so far. -/
structure Tally where
  total : ℤ := 0
  free : ℤ := 0
  seen : List Str := []
  err : Option Err := none

/-- A claimed device counts. -/
def Tally.count (t : Tally) (device : NVMeDevice) (total free : ℤ) : Tally :=
  if device.status.state = .claimed then { t with total := i64 (t.total + total), free := i64 (t.free + free) } else t

variable [StdLib]

/-- The spec of a drive. -/
def described (nodeName : Str) (d : HardwareNVMe) : NVMeDeviceSpec where
  nodeName := nodeName
  pciAddress := toLower (trimSpace d.pciAddress)
  serialNumber := d.serialNumber
  totalCapacity := d.totalBytes

/-- A drive without an object: one is created, and its status is set if it can be. -/
def createDevice (via : Reader) (nodeName name : Str) (d : HardwareNVMe) (t : Tally) : Proc Tally :=
  (create .device { metadata := { ns := [], name }, spec := described nodeName d, status := {} }).check
    (fun _ => .ret t) fun created =>
  (get .device via ⟨[], name⟩).check (fun _ => .ret (t.count created d.totalBytes d.totalBytes)) fun latest =>
  patchStatus .device latest (initialized latest) >>= fun _ =>
  .ret (t.count created d.totalBytes d.totalBytes)

/-- A drive with an object: its spec is refreshed, and then the status that the answer has. -/
def refreshDevice (nodeName : Str) (d : HardwareNVMe) (device : NVMeDevice) (t : Tally) : Proc Tally :=
  (patch .device device { device with spec := described nodeName d }).check (fun _ => .ret t) fun current =>
  (patchStatus .device current (returned current)).check (fun _ => .ret t) fun latest =>
  .ret (t.count latest d.totalBytes latest.status.freeCapacity)

def reportDevice (via : Reader) (nodeName : Str) (d : HardwareNVMe) (t : Tally) : Proc Tally :=
  match validateHardwareNVMe d with
  | some err => .ret { t with err := some (.join t.err (.wrapf "validate discovered NVMe device %q: %w" [.str d.name] err)) }
  | none =>
    match deviceObjectName nodeName d.serialNumber with
    | .error err => .ret { t with err := some (.join t.err err) }
    | .ok name =>
      let t := { t with seen := name :: t.seen }
      (get .device via ⟨[], name⟩).check
        (fun err => if err.isNotFound then createDevice via nodeName name d t else .ret t)
        fun device => refreshDevice nodeName d device t

def reportFound (via : Reader) (nodeName : Str) : List HardwareNVMe → Tally → Proc Tally
  | [], t => .ret t
  | d :: ds, t => reportDevice via nodeName d t >>= reportFound via nodeName ds

/-- The devices of the node that were not seen. -/
def reportMissing (nodeName : Str) (seen : List Str) : List NVMeDevice → Proc Unit
  | [] => .ret ()
  | device :: devices =>
    if device.spec.nodeName ≠ nodeName || seen.contains device.metadata.name then reportMissing nodeName seen devices
    else patchStatus .device device (missing device) >>= fun _ => reportMissing nodeName seen devices

/-- The capacities of the claimed devices, and what went wrong. -/
def reportDevices (via : Reader) (nodeName : Str) : Proc (ℤ × ℤ × Option Err) :=
  node .discoverNVMe >>= fun found =>
  let discovered := match found with
    | .ok devices => (devices, none)
    | .error partly => (partly.1, some partly.2)
  reportFound via nodeName discovered.1 { err := discovered.2 } >>= fun t =>
  (list .device via).check (fun err => .ret (t.total, t.free, some (.join t.err err))) fun reported =>
  if t.err.isSome then .ret (t.total, t.free, t.err)
  else
    reportMissing nodeName t.seen reported >>= fun _ =>
    .ret (t.total, t.free, none)

end Distort.Agent.Reporter
