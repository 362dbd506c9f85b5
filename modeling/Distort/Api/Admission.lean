import Mathlib.Data.List.Chain
import Mathlib.Data.Rat.Floor
import Distort.Api.Types
import Distort.Go.Fields
import Distort.Lib.Pattern
import Distort.Options

/-!
What the API server accepts as the spec of an `NVMePartition`: the schema and the rules of the custom
resource definition.

A spec is taken as it is written, where a field may be absent (`Manifest`).  A rule that mentions
`oldSelf` is evaluated only where the field is there before and after the update; defaults are filled
in first.

* `immutable_iff_never_omitted` — over any accepted history, the placement and the request identity
  never change if and only if no update leaves out a field that was set;
* `placement_replaced` — a history in which the placement is taken off and set again;
* `validate_iff_accepts` — the options that the code accepts are those that the rules accept.
-/

namespace Distort.Api

open Go Lib.Kube

/-! ### Manifests -/

/-- `x-kubernetes-int-or-string`. -/
inductive IntOrString where
  | int (n : ℤ)
  | string (s : Str)
  deriving DecidableEq

/-- A claim reference as it is written. -/
structure ClaimRefManifest where
  ns : Option Str
  name : Option Str
  uid : Option Str
  deriving DecidableEq

/-- The spec of a partition as it is written. -/
structure Manifest where
  size : Option IntOrString
  nodeName : Option Str := none
  parentDeviceSerialNumber : Option Str := none
  claimRef : Option ClaimRefManifest := none
  accessMode : Option Str := none
  filesystem : Option Str := none
  requestFingerprint : Option Str := none
  targetBackend : Option Str := none
  volumeManager : Option Str := none
  targetOptions : Option (List (Str × Str)) := none
  deriving DecidableEq

/-- `resource.Quantity`: the number that a text stands for, and the text that a client writes for what it has read. -/
class Quantity where
  parse : Str → Option ℚ
  canonical : IntOrString → Str

/-- Quantities that are written as plain decimal numbers. -/
abbrev plainQuantity : Quantity where
  canonical
    | .int n => itoa n
    | .string s => s
  parse s := if s ≠ [] ∧ s.all (fun c => 48 ≤ c && c ≤ 57) then
      some ((s.foldl (fun n c => 10 * n + (c.toNat - 48)) 0 : ℕ) : ℚ)
    else none

def IntOrString.quantity [Quantity] : IntOrString → Option ℚ
  | .int n => some n
  | .string s => Quantity.parse s

/-- The defaults of the schema. -/
def Manifest.withDefaults (m : Manifest) : Manifest :=
  { m with
    targetBackend := some (m.targetBackend.getD "spdk")
    volumeManager := some (m.volumeManager.getD "partition") }

/-! ### What clients see and write -/

/-- A claim reference as clients see it. -/
def ClaimRefManifest.decode (r : ClaimRefManifest) : ClaimRef := ⟨r.ns.getD [], r.name.getD [], r.uid.getD []⟩

/-- The spec as clients see it: what is absent is empty. -/
def Manifest.decode [Quantity] (m : Manifest) : NVMePartitionSpec where
  size := ((m.size.bind (·.quantity)).map Int.ceil).getD 0
  nodeName := m.nodeName.getD []
  parentDeviceSerialNumber := m.parentDeviceSerialNumber.getD []
  claimRef := m.claimRef.map (·.decode)
  accessMode := m.accessMode.getD []
  filesystem := m.filesystem.getD []
  requestFingerprint := m.requestFingerprint.getD []
  targetBackend := m.targetBackend.getD []
  volumeManager := m.volumeManager.getD []
  targetOptions := m.targetOptions.getD []

/-- `omitempty`. -/
def omitEmpty {α : Type} (l : List α) : Option (List α) := if l.isEmpty then none else some l

/-- The spec as clients write it who have read this size: what is empty is left out, and the size is in canonical form. -/
def Manifest.encode [Quantity] (size : Option IntOrString) (s : NVMePartitionSpec) : Manifest where
  size := size.map fun read => .string (Quantity.canonical read)
  nodeName := omitEmpty s.nodeName
  parentDeviceSerialNumber := omitEmpty s.parentDeviceSerialNumber
  claimRef := s.claimRef.map fun r => ⟨some r.ns, some r.name, some r.uid⟩
  accessMode := omitEmpty s.accessMode
  filesystem := omitEmpty s.filesystem
  requestFingerprint := omitEmpty s.requestFingerprint
  targetBackend := omitEmpty s.targetBackend
  volumeManager := omitEmpty s.volumeManager
  targetOptions := omitEmpty s.targetOptions

@[simp] theorem getD_omitEmpty {α : Type} (l : List α) : (omitEmpty l).getD [] = l := by
  cases l <;> rfl

theorem omitEmpty_ne_none {α : Type} {l : List α} : omitEmpty l ≠ none ↔ l ≠ [] := by
  cases l <;> simp [omitEmpty]

theorem decode_encode_placement [Quantity] (size : Option IntOrString) (s : NVMePartitionSpec) :
    (Manifest.encode size s).decode.nodeName = s.nodeName ∧
    (Manifest.encode size s).decode.parentDeviceSerialNumber = s.parentDeviceSerialNumber ∧
    (Manifest.encode size s).decode.claimRef = s.claimRef := by
  refine ⟨by simp [Manifest.encode, Manifest.decode], by simp [Manifest.encode, Manifest.decode], ?_⟩
  cases hc : s.claimRef <;> simp [Manifest.encode, Manifest.decode, ClaimRefManifest.decode, hc]

/-! ### Rules -/

/-- A rule that is broken: the field it stands at and its message. -/
structure Violation where
  field : String
  message : String
  deriving DecidableEq

def rule (field message : String) (holds : Bool) : List Violation :=
  if holds then [] else [⟨field, message⟩]

/-- A rule on the value of a field that is there. -/
def onValue {α : Type} (f : α → List Violation) : Option α → List Violation
  | none => []
  | some a => f a

/-- The rule `self == oldSelf`. -/
def transition {α : Type} [DecidableEq α] (field message : String) : Option α → Option α → List Violation
  | some old, some new => rule field message (new = old)
  | _, _ => []

/-- An enumeration. -/
def oneOf (field : String) (values : List Str) (s : Str) : List Violation :=
  rule field "Unsupported value" (s ∈ values)

def required {α : Type} (field : String) (v : Option α) : List Violation := rule field "Required value" v.isSome

def nonEmpty (field : String) : Option Str → List Violation :=
  onValue fun s => rule field "should be at least 1 chars long" (s ≠ [])

def sizeRules [Quantity] (old new : Option IntOrString) : List Violation :=
  required "spec.size" new ++
  onValue (fun v => match v.quantity with
    | none => [⟨"spec.size", "should match the pattern of a quantity"⟩]
    | some q => rule "spec.size" "size must be positive and safely roundable to a 4 MiB allocation unit"
        (0 < q && q ≤ 9223372036850581504)) new ++
  transition "spec.size" "size is immutable" old new

def nodeNameRules : Option Str → Option Str → List Violation :=
  transition "spec.nodeName" "nodeName is immutable after assignment"

def parentDeviceSerialNumberRules : Option Str → Option Str → List Violation :=
  transition "spec.parentDeviceSerialNumber" "parentDeviceSerialNumber is immutable after assignment"

def claimRefRules (old new : Option ClaimRefManifest) : List Violation :=
  onValue (fun r => required "spec.claimRef.name" r.name ++ required "spec.claimRef.namespace" r.ns ++
    required "spec.claimRef.uid" r.uid ++ nonEmpty "spec.claimRef.name" r.name ++
    nonEmpty "spec.claimRef.namespace" r.ns ++
    onValue (fun uid => rule "spec.claimRef" "claimRef UID must not be empty" (uid ≠ [])) r.uid) new ++
  transition "spec.claimRef" "claimRef is immutable" old new

def accessModeRules (old new : Option Str) : List Violation :=
  onValue (oneOf "spec.accessMode" ["SINGLE_NODE_WRITER"]) new ++
  transition "spec.accessMode" "accessMode is immutable" old new

def filesystemRules (old new : Option Str) : List Violation :=
  onValue (oneOf "spec.filesystem" ["ext4", "xfs"]) new ++
  transition "spec.filesystem" "filesystem is immutable" old new

/-- The pattern `^[a-f0-9]{64}$`. -/
def isFingerprint (s : Str) : Bool :=
  s.length = 64 && s.all fun c => (48 ≤ c && c ≤ 57) || (97 ≤ c && c ≤ 102)

def requestFingerprintRules (old new : Option Str) : List Violation :=
  onValue (fun s => rule "spec.requestFingerprint" "should match '^[a-f0-9]\x7b64\x7d$'" (isFingerprint s)) new ++
  transition "spec.requestFingerprint" "requestFingerprint is immutable" old new

def targetBackendRules (old new : Option Str) : List Violation :=
  onValue (oneOf "spec.targetBackend" ["spdk", "kernel"]) new ++
  transition "spec.targetBackend" "targetBackend is immutable" old new

def volumeManagerRules (old new : Option Str) : List Violation :=
  onValue (oneOf "spec.volumeManager" ["partition"]) new ++
  transition "spec.volumeManager" "volumeManager is immutable" old new

/-- The pattern `^0x[0-9A-Fa-f]*[1-9A-Fa-f][0-9A-Fa-f]*$`. -/
def coreMaskPattern : RegularExpression UInt8 :=
  let hex := Lib.anyOf (str "0123456789ABCDEFabcdef")
  .char 48 * (.char 120 * (hex.star * Lib.anyOf (str "123456789ABCDEFabcdef") * hex.star))

/-- `size(s) <= 258 && s.matches(...)`; the size is the number of code points. -/
def isCoreMask (s : Str) : Bool := s.countP (!continues ·) ≤ 258 && coreMaskPattern.rmatch s

def targetOptionsRules (old new : Option (List (Str × Str))) : List Violation :=
  onValue (fun options =>
    rule "spec.targetOptions" "must have at most 1 items" (options.length ≤ 1) ++
    rule "spec.targetOptions" "targetOptions contains an unsupported backend option"
      (options.all fun o => o.1 = Options.spdkCoreMaskOption) ++
    onValue (fun mask => rule "spec.targetOptions"
      "spdk-core-mask must be at most 258 characters, match 0x followed by hexadecimal digits, and select at least one CPU"
      (isCoreMask mask)) (options.lookup Options.spdkCoreMaskOption)) new ++
  transition "spec.targetOptions" "targetOptions is immutable" old new

/-- The rules on the spec as a whole. -/
def specRules (new : Manifest) : List Violation :=
  rule "spec" "nodeName, parentDeviceSerialNumber, and claimRef must either all be omitted or all be set by the scheduler"
    ((!new.nodeName.isSome && !new.parentDeviceSerialNumber.isSome && !new.claimRef.isSome) ||
      (new.nodeName.isSome && new.parentDeviceSerialNumber.isSome && new.claimRef.isSome)) ++
  rule "spec" "spdk-core-mask is supported only by the spdk backend"
    ((new.targetOptions.bind fun o => o.lookup Options.spdkCoreMaskOption).isNone ||
      new.targetBackend.isNone || new.targetBackend = some (str "spdk"))

/-- Every rule that the new spec breaks; `old` is the stored one, if this is an update. -/
def violations [Quantity] (old : Option Manifest) (new : Manifest) : List Violation :=
  sizeRules (old.bind (·.size)) new.size ++
  nodeNameRules (old.bind (·.nodeName)) new.nodeName ++
  parentDeviceSerialNumberRules (old.bind (·.parentDeviceSerialNumber)) new.parentDeviceSerialNumber ++
  claimRefRules (old.bind (·.claimRef)) new.claimRef ++
  accessModeRules (old.bind (·.accessMode)) new.accessMode ++
  filesystemRules (old.bind (·.filesystem)) new.filesystem ++
  requestFingerprintRules (old.bind (·.requestFingerprint)) new.requestFingerprint ++
  targetBackendRules (old.bind (·.targetBackend)) new.targetBackend ++
  volumeManagerRules (old.bind (·.volumeManager)) new.volumeManager ++
  targetOptionsRules (old.bind (·.targetOptions)) new.targetOptions ++
  specRules new

def accepts [Quantity] (old : Option Manifest) (new : Manifest) : Bool := (violations old new).isEmpty

/-! ### What a single update keeps -/

@[simp] theorem rule_eq_nil {field message : String} {b : Bool} : rule field message b = [] ↔ b = true := by
  unfold rule
  split <;> simp_all

/-! ### Options -/

theorem digit_iff (d : UInt8) : (d ∈ str "0123456789ABCDEFabcdef" ↔ Options.isHexDigit d = true) ∧
    (d ∈ str "123456789ABCDEFabcdef" ↔ Options.isHexDigit d = true ∧ d ≠ 48) ∧
    (Options.isHexDigit d = true → continues d = false) := by
  have hall : ∀ n < 256, (UInt8.ofNat n ∈ str "0123456789ABCDEFabcdef" ↔ Options.isHexDigit (UInt8.ofNat n) = true) ∧
      (UInt8.ofNat n ∈ str "123456789ABCDEFabcdef" ↔ Options.isHexDigit (UInt8.ofNat n) = true ∧ UInt8.ofNat n ≠ 48) ∧
      (Options.isHexDigit (UInt8.ofNat n) = true → continues (UInt8.ofNat n) = false) := by
    decide +kernel
  simpa only [UInt8.ofNat_toNat] using hall d.toNat d.toNat_lt

theorem mem_coreMaskPattern {s : Str} : s ∈ coreMaskPattern.matches' ↔
    ∃ digits, s = 48 :: 120 :: digits ∧ (∀ d ∈ digits, Options.isHexDigit d = true) ∧ ∃ d ∈ digits, d ≠ 48 := by
  simp only [coreMaskPattern, RegularExpression.matches'_mul, RegularExpression.matches'_char, Language.mem_mul,
    Lib.mem_anyOf, Lib.mem_star_anyOf, digit_iff]
  constructor
  · rintro ⟨_, rfl, _, ⟨_, rfl, _, ⟨_, ⟨before, hbefore, _, ⟨d, hd, rfl⟩, rfl⟩, after, hafter, rfl⟩, rfl⟩, rfl⟩
    refine ⟨before ++ [d] ++ after, rfl, fun c hc => ?_, d, by simp, hd.2⟩
    rcases List.mem_append.1 hc with hc | hc
    · rcases List.mem_append.1 hc with hc | hc
      · exact hbefore c hc
      · rw [List.mem_singleton.1 hc]
        exact hd.1
    · exact hafter c hc
  · rintro ⟨digits, rfl, hall, d, hd, hne⟩
    obtain ⟨before, after, rfl⟩ := List.append_of_mem hd
    refine ⟨[48], rfl, _, ⟨[120], rfl, _, ⟨_, ⟨before, fun c hc => hall c (by simp [hc]), [d], ⟨d, ⟨hall d hd, hne⟩, rfl⟩, rfl⟩,
      after, fun c hc => hall c (by simp [hc]), rfl⟩, rfl⟩, ?_⟩
    simp

theorem isCoreMask_iff {s : Str} : isCoreMask s = true ↔ Options.validateSPDKCoreMask s = .ok () := by
  rw [isCoreMask, Bool.and_eq_true, decide_eq_true_eq, RegularExpression.rmatch_iff_matches', mem_coreMaskPattern,
    Options.validateSPDKCoreMask_eq_ok]
  refine and_congr_left ?_
  -- there is one byte to a code point
  rintro ⟨digits, rfl, hall, -⟩
  have hbytes : (48 :: 120 :: digits).countP (!continues ·) = (48 :: 120 :: digits).length := by
    refine List.countP_eq_length.2 fun d hd => ?_
    rcases List.mem_cons.1 hd with rfl | hd
    · rfl
    rcases List.mem_cons.1 hd with rfl | hd
    · rfl
    · rw [(digit_iff d).2.2 (hall d hd)]
      rfl
  rw [hbytes]
  exact Iff.rfl

theorem optionRules_iff {backend : Str} (hne : backend ≠ []) {options : List (Str × Str)}
    (hkeys : (options.map Prod.fst).Nodup) : (targetOptionsRules none (some options) = [] ∧
        ((options.lookup Options.spdkCoreMaskOption).isNone = true ∨ backend = str "spdk")) ↔
      Options.validate backend options = .ok () := by
  rw [Options.validate_eq_ok hne]
  match options with
  | [] => simp [targetOptionsRules, onValue, transition]
  | [(name, mask)] =>
    by_cases hname : name = Options.spdkCoreMaskOption
    · subst hname
      simp [targetOptionsRules, onValue, transition, ← isCoreMask_iff, and_comm]
    · simp [targetOptionsRules, onValue, transition, hname]
  | a :: b :: rest =>
    -- two options are too many for the rules, and have two names
    refine iff_of_false (fun h => ?_) fun h => ?_
    · simp [targetOptionsRules, onValue, transition] at h
    · have hab := (List.nodup_cons.1 hkeys).1
      exact hab (by simp [(h a (by simp)).1, (h b (by simp)).1])

section

variable [Quantity]

/-- **The code and the rules accept the same options**: with options added, a spec is accepted exactly if it is accepted
without and the code accepts the options for its backend; and of core masks, they accept the same. -/
theorem validate_iff_accepts {backend : Str} (hbackend : backend = "spdk" ∨ backend = "kernel")
    (options : List (Str × Str)) (hkeys : (options.map Prod.fst).Nodup) :
    (∀ m : Manifest, accepts none { m with targetBackend := some backend, targetOptions := some options } = true ↔
      accepts none { m with targetBackend := some backend, targetOptions := none } = true ∧
        Options.validate backend options = .ok ()) ∧
    ∀ coreMask, isCoreMask coreMask = true ↔ Options.validateSPDKCoreMask coreMask = .ok () := by
  refine ⟨fun m => ?_, fun _ => isCoreMask_iff⟩
  have hne : backend ≠ [] := by
    rcases hbackend with rfl | rfl <;> decide
  rw [← optionRules_iff hne hkeys]
  have habsent : targetOptionsRules none none = [] := rfl
  simp only [accepts, violations, specRules, List.isEmpty_iff, List.append_eq_nil_iff, rule_eq_nil, Option.bind_some,
    Option.bind_none, Bool.or_eq_true, decide_eq_true_eq, Option.isNone_some, Option.isNone_none, Option.some.injEq,
    habsent, Bool.false_eq_true, or_false, true_or, and_true]
  exact and_and_and_comm

end

theorem eq_of_transition {α : Type} [DecidableEq α] {field message : String} {old new : Option α}
    (h : transition field message old new = []) {v : α} (ho : old = some v) (hn : new ≠ none) : new = some v := by
  obtain ⟨w, rfl⟩ := Option.ne_none_iff_exists'.1 hn
  subst ho
  simp only [transition, rule_eq_nil, decide_eq_true_eq] at h
  rw [h]

/-- The new spec leaves out a field of the placement or of the request identity that the old one has. -/
def Omits (s t : Manifest) : Prop :=
  s.nodeName ≠ none ∧ t.nodeName = none ∨
  s.parentDeviceSerialNumber ≠ none ∧ t.parentDeviceSerialNumber = none ∨
  s.claimRef ≠ none ∧ t.claimRef = none ∨
  s.requestFingerprint ≠ none ∧ t.requestFingerprint = none ∨
  s.filesystem ≠ none ∧ t.filesystem = none ∨
  s.accessMode ≠ none ∧ t.accessMode = none ∨
  s.targetOptions ≠ none ∧ t.targetOptions = none

/-- The later spec has the placement and the request identity of the earlier one, as far as these
were set. -/
structure Keeps (s t : Manifest) : Prop where
  placement : ∀ node serial ref, s.nodeName = some node → s.parentDeviceSerialNumber = some serial →
    s.claimRef = some ref →
    t.nodeName = some node ∧ t.parentDeviceSerialNumber = some serial ∧ t.claimRef = some ref
  requestFingerprint : ∀ v, s.requestFingerprint = some v → t.requestFingerprint = some v
  filesystem : ∀ v, s.filesystem = some v → t.filesystem = some v
  accessMode : ∀ v, s.accessMode = some v → t.accessMode = some v
  targetOptions : ∀ v, s.targetOptions = some v → t.targetOptions = some v

instance : Trans Keeps Keeps Keeps where
  trans {s t u} h h' := by
    refine ⟨fun node serial ref hn hs hr => ?_, fun v hv => h'.requestFingerprint v (h.requestFingerprint v hv),
      fun v hv => h'.filesystem v (h.filesystem v hv), fun v hv => h'.accessMode v (h.accessMode v hv),
      fun v hv => h'.targetOptions v (h.targetOptions v hv)⟩
    obtain ⟨hn', hs', hr'⟩ := h.placement node serial ref hn hs hr
    exact h'.placement node serial ref hn' hs' hr'

section

variable [Quantity]

variable {old : Option Manifest}

theorem placement_of_accepts {s : Manifest} (h : accepts old s = true) :
    s.nodeName ≠ none ∧ s.parentDeviceSerialNumber ≠ none ∧ s.claimRef ≠ none ∨
    s.nodeName = none ∧ s.parentDeviceSerialNumber = none ∧ s.claimRef = none := by
  have hspec : specRules s = [] := by
    simp only [accepts, violations, List.isEmpty_iff, List.append_eq_nil_iff] at h
    exact h.2
  simp only [specRules, List.append_eq_nil_iff, rule_eq_nil] at hspec
  obtain ⟨hall, -⟩ := hspec
  cases hn : s.nodeName <;> cases hp : s.parentDeviceSerialNumber <;> cases hc : s.claimRef <;>
    simp [hn, hp, hc] at hall ⊢

theorem claimRef_of_accepts {s : Manifest} (h : accepts old s = true) {r : ClaimRefManifest}
    (hr : s.claimRef = some r) : r.decode.ns ≠ [] ∧ r.decode.name ≠ [] ∧ r.decode.uid ≠ [] := by
  simp only [accepts, violations, List.isEmpty_iff, List.append_eq_nil_iff, claimRefRules, hr, onValue] at h
  obtain ⟨⟨⟨⟨⟨⟨⟨⟨-, ⟨⟨⟨⟨⟨hname, hns⟩, huid⟩, hname'⟩, hns'⟩, huid'⟩, -⟩, -⟩, -⟩, -⟩, -⟩, -⟩, -⟩, -⟩ := h
  obtain ⟨ns, name, uid⟩ := r
  cases ns <;> cases name <;> cases uid <;> simp_all [required, nonEmpty, onValue, ClaimRefManifest.decode]

/-- **One update.**  An accepted update that leaves out nothing keeps what was set. -/
theorem keeps_of_accepts {s t : Manifest} (h : accepts (some s) t = true) (ho : ¬ Omits s t) : Keeps s t := by
  simp only [accepts, violations, List.isEmpty_iff, List.append_eq_nil_iff, Option.bind_some, claimRefRules,
    accessModeRules, filesystemRules, requestFingerprintRules, targetOptionsRules] at h
  obtain ⟨⟨⟨⟨⟨⟨⟨⟨⟨⟨-, hnode⟩, hserial⟩, -, hclaim⟩, -, haccess⟩, -, hfs⟩, -, hfp⟩, -⟩, -⟩, -, hoptions⟩, -⟩ := h
  simp only [Omits, not_or, not_and] at ho
  obtain ⟨onode, oserial, oclaim, ofp, ofs, oaccess, ooptions⟩ := ho
  -- a field that was set is still there, so its transition rule was evaluated
  refine ⟨fun node serial ref hn hs hr => ⟨?_, ?_, ?_⟩, fun v hv => ?_, fun v hv => ?_, fun v hv => ?_, fun v hv => ?_⟩
  · exact eq_of_transition hnode hn (onode (by simp [hn]))
  · exact eq_of_transition hserial hs (oserial (by simp [hs]))
  · exact eq_of_transition hclaim hr (oclaim (by simp [hr]))
  · exact eq_of_transition hfp hv (ofp (by simp [hv]))
  · exact eq_of_transition hfs hv (ofs (by simp [hv]))
  · exact eq_of_transition haccess hv (oaccess (by simp [hv]))
  · exact eq_of_transition hoptions hv (ooptions (by simp [hv]))

theorem not_omits_of_keeps {s t : Manifest} (hs : accepts old s = true) (h : Keeps s t) : ¬ Omits s t := by
  have hplace : s.nodeName ≠ none ∨ s.parentDeviceSerialNumber ≠ none ∨ s.claimRef ≠ none →
      t.nodeName ≠ none ∧ t.parentDeviceSerialNumber ≠ none ∧ t.claimRef ≠ none := by
    intro hsome
    rcases placement_of_accepts hs with ⟨hn, hp, hc⟩ | ⟨hn, hp, hc⟩
    · obtain ⟨node, hn⟩ := Option.ne_none_iff_exists'.1 hn
      obtain ⟨serial, hp⟩ := Option.ne_none_iff_exists'.1 hp
      obtain ⟨ref, hc⟩ := Option.ne_none_iff_exists'.1 hc
      obtain ⟨hn', hp', hc'⟩ := h.placement node serial ref hn hp hc
      simp [hn', hp', hc']
    · simp [hn, hp, hc] at hsome
  have hfield : ∀ {α : Type} {a b : Option α}, (∀ v, a = some v → b = some v) → a ≠ none → b ≠ none := by
    intro α a b hab ha
    obtain ⟨v, hv⟩ := Option.ne_none_iff_exists'.1 ha
    simp [hab v hv]
  rintro (⟨hset, ho⟩ | ⟨hset, ho⟩ | ⟨hset, ho⟩ | ⟨hset, ho⟩ | ⟨hset, ho⟩ | ⟨hset, ho⟩ | ⟨hset, ho⟩)
  · exact (hplace (.inl hset)).1 ho
  · exact (hplace (.inr (.inl hset))).2.1 ho
  · exact (hplace (.inr (.inr hset))).2.2 ho
  · exact hfield h.requestFingerprint hset ho
  · exact hfield h.filesystem hset ho
  · exact hfield h.accessMode hset ho
  · exact hfield h.targetOptions hset ho

/-! ### Histories -/

/-- What is stored after each of the requests, the first of which creates the partition. -/
def history (requests : List Manifest) : List Manifest := requests.map Manifest.withDefaults

/-- Every request of the history was accepted. -/
def Accepted (requests : List Manifest) : Prop :=
  (∀ s ∈ (history requests).head?, accepts none s = true) ∧
    (history requests).IsChain fun s t => accepts (some s) t = true

theorem accepts_of_mem {l : List Manifest} (hhead : ∀ s ∈ l.head?, ∃ old, accepts old s = true)
    (hchain : l.IsChain fun s t => accepts (some s) t = true) {s : Manifest} (hs : s ∈ l) :
    ∃ old, accepts old s = true := by
  induction l with
  | nil => cases hs
  | cons a l ih =>
    rcases List.mem_cons.1 hs with rfl | hs
    · exact hhead s (by simp)
    · refine ih (fun b hb => ⟨some a, ?_⟩) hchain.tail hs
      exact (List.isChain_cons.1 hchain).1 b hb

/-- **Immutability.**  Over an accepted history the placement and the request identity, once set, are
never changed if and only if no update leaves out a field of theirs that was set. -/
theorem immutable_iff_never_omitted (requests : List Manifest) (h : Accepted requests) :
    (history requests).Pairwise Keeps ↔ (history requests).IsChain fun s t => ¬ Omits s t := by
  obtain ⟨hhead, hchain⟩ := h
  have hall : ∀ s ∈ history requests, ∃ old, accepts old s = true := fun s hs =>
    accepts_of_mem (fun a ha => ⟨none, hhead a ha⟩) hchain hs
  rw [← List.isChain_iff_pairwise]
  constructor
  · intro hk
    refine List.IsChain.imp_of_mem_imp (fun s t hs _ hst => ?_) hk
    obtain ⟨old, hacc⟩ := hall s hs
    exact not_omits_of_keeps hacc hst
  · intro ho
    rw [List.isChain_iff_forall_rel_of_append_cons_cons] at hchain ho ⊢
    intro s t l₁ l₂ hl
    exact keeps_of_accepts (hchain hl) (ho hl)

instance (s t : Manifest) : Decidable (Omits s t) :=
  inferInstanceAs (Decidable (_ ∧ _ ∨ _ ∧ _ ∨ _ ∧ _ ∨ _ ∧ _ ∨ _ ∧ _ ∨ _ ∧ _ ∨ _ ∧ _))

instance (requests : List Manifest) : Decidable (Accepted requests) :=
  inferInstanceAs (Decidable ((∀ s ∈ (history requests).head?, accepts none s = true) ∧
    (history requests).IsChain fun s t => accepts (some s) t = true))

end

section

attribute [local instance] plainQuantity

/-- A placed spec. -/
def placedOn (node : Str) : Manifest where
  size := some (.string (str "4194304"))
  nodeName := some node
  parentDeviceSerialNumber := some (str "s1")
  claimRef := some ⟨some (str "ns"), some (str "claim"), some (str "c1")⟩

def unplaced : Manifest where
  size := some (.string (str "4194304"))

/-- A mask of upper and lower case. -/
theorem validate_iff_accepts_mask :
    accepts none { unplaced with targetBackend := some "spdk", targetOptions := some [("spdk-core-mask", "0x0fA")] } = true :=
  ((validate_iff_accepts (.inl rfl) [("spdk-core-mask", "0x0fA")] (by decide)).1 unplaced).2
    ⟨by decide +kernel, by decide +kernel⟩

/-- A partition is created without a placement, and placed; then a filesystem is added, and then a fingerprint. -/
def placing : List Manifest :=
  let placed := { placedOn (str "n1") with filesystem := some (str "ext4") }
  [unplaced, placedOn (str "n1"), placed, { placed with requestFingerprint := some (List.replicate 64 97) }]

theorem immutable_iff_never_omitted_placed : Accepted placing ∧ (history placing).Pairwise Keeps := by
  have h : Accepted placing := by decide +kernel
  exact ⟨h, (immutable_iff_never_omitted _ h).2 (by decide +kernel)⟩

/-- **A placement is replaced**: all three fields are left out, which the rules admit, and then set to
others. -/
theorem placement_replaced : Accepted [placedOn (str "n1"), unplaced, placedOn (str "n2")] ∧
    ¬ (history [placedOn (str "n1"), unplaced, placedOn (str "n2")]).Pairwise Keeps := by
  refine ⟨by decide +kernel, fun h => ?_⟩
  simp only [history, List.map_cons, List.map_nil, List.pairwise_cons] at h
  have hkeep := h.1 (placedOn (str "n2")).withDefaults (by simp)
  have hnode := (hkeep.placement (str "n1") (str "s1") _ rfl rfl rfl).1
  exact absurd hnode (by decide)

end

end Distort.Api
