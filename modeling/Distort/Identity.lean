import Distort.Api.Types
import Distort.Go.Encoding

/-!
Names and identities: the packages `attachment`, `volumeidentity` and `placementauth`.

Every volume has one identity derived from the UID of its partition, every node has one host
identity derived from its name, and a placement is authorized by a fingerprint over everything it
binds together.
-/

namespace Distort

open Go Lib.Kube Api

/-! ### `internal/attachment` -/

namespace Attachment

def finalizer : Str := "storage.distort.io/attachment-fencing"
def forceDetachAnnotation : Str := "storage.distort.io/force-detach-node"
def accessReadyCondition : Str := "AccessReady"

/-- The name shared by all attachments of one volume. -/
def name [StdLib] (volumeUID : Str) : Str := str "nvme-attach-" ++ toLower volumeUID

def hostNQN (nodeID : Str) : Str :=
  str "nqn.2026-01.io.distort:host-" ++ hexEncode ((sha256 nodeID).take 16)

end Attachment

/-! ### `internal/volumeidentity` -/

namespace VolumeIdentity

def handlePrefix : Str := "distort-v1"
def nqnPrefix : Str := "nqn.2026-02.io.distort:volume-"

structure Identity where
  externalID : Str
  volumeHandle : Str
  deriving DecidableEq

/-- The exact object that a volume handle stands for. -/
structure Reference where
  ns : Str
  name : Str
  uid : Str
  deriving DecidableEq

def Reference.key (r : Reference) : Key := ⟨r.ns, r.name⟩

/-- `New`. -/
def new (ns name uid : Str) : Except Err Identity :=
  if ns = [] ∨ name = [] ∨ uid = [] then
    .error (.errorf "namespace, name, and UID are required for volume identity" [])
  else
    .ok {
      externalID := str "vol-" ++ hexEncode ((sha256 uid).take 16)
      volumeHandle := join [handlePrefix, base64Encode ns, base64Encode name, base64Encode uid] "." }

/-- One field of a handle. -/
def decode (field : String) (encoded : Str) : Except Err Str :=
  match base64Decode encoded with
  | some (b :: bs) => .ok (b :: bs)
  | _ => .error (.errorf "invalid %s in volume handle" [.str field])

/-- `ParseVolumeHandle`. -/
def parseVolumeHandle (handle : Str) : Except Err Reference :=
  match handle.splitOn 46 with
  | [pre, ns, name, uid] =>
    if pre ≠ handlePrefix then .error (.errorf "unsupported volume handle format" [])
    else do
      let ns ← decode "namespace" ns
      let name ← decode "name" name
      let uid ← decode "UID" uid
      return ⟨ns, name, uid⟩
  | _ => .error (.errorf "unsupported volume handle format" [])

def nqn (externalID : Str) : Str := nqnPrefix ++ externalID

/-- `ExternalIDFromNQN`: what follows the prefix, and whether there is such a thing; without the
prefix it is the whole name. -/
def externalIDFromNQN (s : Str) : Str × Bool :=
  let cut := cutPrefix s nqnPrefix
  (cut.1, cut.2 && cut.1 ≠ [])

@[simp] theorem externalIDFromNQN_nqn {externalID : Str} (h : externalID ≠ []) :
    externalIDFromNQN (nqn externalID) = (externalID, true) := by
  simp [externalIDFromNQN, cutPrefix, nqn, hasPrefix, h]

@[simp] theorem externalIDFromNQN_nil : externalIDFromNQN [] = ([], false) := by decide

variable {ns name uid : Str}

theorem new_externalID {i : Identity} (h : new ns name uid = .ok i) :
    i.externalID = str "vol-" ++ hexEncode ((sha256 uid).take 16) := by
  unfold new at h
  split at h
  · cases h
  · cases h
    rfl

theorem externalID_ne_nil {i : Identity} (h : new ns name uid = .ok i) : i.externalID ≠ [] := by
  rw [new_externalID h]
  simp [str]

theorem exists_new (hns : ns ≠ []) (hname : name ≠ []) (huid : uid ≠ []) : ∃ i, new ns name uid = .ok i := by
  unfold new
  rw [if_neg (by simp [hns, hname, huid])]
  exact ⟨_, rfl⟩

/-- **A handle is read back.** -/
theorem parseVolumeHandle_new {i : Identity} (h : new ns name uid = .ok i) :
    parseVolumeHandle i.volumeHandle = .ok ⟨ns, name, uid⟩ := by
  have hdecode : ∀ (field : String) (m : Str), m ≠ [] → decode field (base64Encode m) = .ok m := by
    intro field m hm
    unfold decode
    rw [base64Decode_encode]
    cases m with
    | nil => exact absurd rfl hm
    | cons b bs => rfl
  have hdot : ∀ part ∈ [handlePrefix, base64Encode ns, base64Encode name, base64Encode uid], (46 : UInt8) ∉ part := by
    simp only [List.mem_cons, List.not_mem_nil, or_false]
    rintro part (rfl | rfl | rfl | rfl)
    · decide
    · exact not_mem_base64Encode ns
    · exact not_mem_base64Encode name
    · exact not_mem_base64Encode uid
  unfold new at h
  split at h
  · cases h
  rename_i hne
  simp only [not_or] at hne
  cases h
  unfold parseVolumeHandle
  have hsplit := List.splitOn_intercalate 46 hdot (List.cons_ne_nil _ _)
  have hjoin : join [handlePrefix, base64Encode ns, base64Encode name, base64Encode uid] "." =
      [46].intercalate [handlePrefix, base64Encode ns, base64Encode name, base64Encode uid] := rfl
  rw [hjoin, hsplit]
  simp only [ne_eq, not_true_eq_false, if_false, hdecode "namespace" ns hne.1, hdecode "name" name hne.2.1,
    hdecode "UID" uid hne.2.2]
  rfl

theorem new_handle_inj {ns name uid ns' name' uid' : Str} {i i' : Identity} (h : new ns name uid = .ok i)
    (h' : new ns' name' uid' = .ok i') (heq : i.volumeHandle = i'.volumeHandle) : (ns, name, uid) = (ns', name', uid') := by
  have hparse := parseVolumeHandle_new h
  rw [heq, parseVolumeHandle_new h'] at hparse
  cases hparse
  rfl

/-- **Handles are a faithful code**: every triple has one, it is read back, and no other triple has the same. -/
theorem volumeHandle_faithful (ns name uid : Str) (hns : ns ≠ []) (hname : name ≠ []) (huid : uid ≠ []) :
    ∃ i, new ns name uid = .ok i ∧ parseVolumeHandle i.volumeHandle = .ok ⟨ns, name, uid⟩ ∧
      ∀ ns' name' uid' i', new ns' name' uid' = .ok i' → i'.volumeHandle = i.volumeHandle →
        (ns', name', uid') = (ns, name, uid) := by
  obtain ⟨i, hi⟩ := exists_new hns hname huid
  refine ⟨i, hi, parseVolumeHandle_new hi, ?_⟩
  intro ns' name' uid' i' hi' heq
  exact new_handle_inj hi' hi heq

/-- Components with a separator, a byte that is no text, and all lengths of padding. -/
theorem volumeHandle_faithful_odd : ∃ i, new (str "a.b") [255, 0] "u" = .ok i ∧
    parseVolumeHandle i.volumeHandle = .ok ⟨"a.b", [255, 0], "u"⟩ := by
  obtain ⟨i, hi, hparse, -⟩ := volumeHandle_faithful "a.b" [255, 0] "u" (by decide) (by decide) (by decide)
  exact ⟨i, hi, hparse⟩

/-- The handle of the volume `vol` in the namespace `ns`. -/
def sampleHandle : Str := join [handlePrefix, base64Encode "ns", base64Encode "vol", base64Encode "u1"] (str ".")

end VolumeIdentity

/-! ### `internal/placementauth` -/

namespace PlacementAuth

def conditionType : Str := "PlacementAuthorized"

/-- `writeComponent`: the length in eight bytes, then the bytes. -/
def component (value : Str) : Str := beUInt64 value.length ++ value

/-- `Fingerprint`: empty if anything is missing. -/
def fingerprint (partitionUID nodeName deviceSerial : Str) (claimRef : Option ClaimRef) : Str :=
  match claimRef with
  | none => []
  | some r =>
    if partitionUID = [] ∨ nodeName = [] ∨ deviceSerial = [] ∨ r.ns = [] ∨ r.name = [] ∨ r.uid = [] then []
    else hexEncode (sha256 (component partitionUID ++ component nodeName ++ component deviceSerial ++
      component r.ns ++ component r.name ++ component r.uid))

theorem fingerprint_ne_nil {partitionUID nodeName deviceSerial : Str} {r : ClaimRef} (hu : partitionUID ≠ [])
    (hn : nodeName ≠ []) (hd : deviceSerial ≠ []) (hr : r.ns ≠ [] ∧ r.name ≠ [] ∧ r.uid ≠ []) :
    fingerprint partitionUID nodeName deviceSerial (some r) ≠ [] := by
  intro h
  have hlen := congrArg List.length h
  simp [fingerprint, hu, hn, hd, hr, hexEncode_length, sha256_length] at hlen

/-- `IsAuthorized`. -/
def isAuthorized (p : NVMePartition) : Bool :=
  match findStatusCondition p.status.conditions conditionType with
  | none => false
  | some c =>
    c.status == .true && c.observedGeneration == p.metadata.generation &&
      let expected := fingerprint p.metadata.uid p.spec.nodeName p.spec.parentDeviceSerialNumber p.spec.claimRef
      expected != [] && p.status.placementFingerprint == expected

theorem isAuthorized_iff {p : NVMePartition} : isAuthorized p = true ↔
    ∃ c, findStatusCondition p.status.conditions conditionType = some c ∧ c.status = .true ∧
      c.observedGeneration = p.metadata.generation ∧
      p.status.placementFingerprint = fingerprint p.metadata.uid p.spec.nodeName
        p.spec.parentDeviceSerialNumber p.spec.claimRef ∧ p.status.placementFingerprint ≠ [] := by
  unfold isAuthorized
  cases findStatusCondition p.status.conditions conditionType with
  | none => simp
  | some c =>
    simp only [Bool.and_eq_true, beq_iff_eq, bne_iff_ne, Option.some.injEq, exists_eq_left', and_assoc]
    constructor
    · rintro ⟨hs, hg, hne, hf⟩
      exact ⟨hs, hg, hf, by rw [hf]; exact hne⟩
    · rintro ⟨hs, hg, hf, hne⟩
      exact ⟨hs, hg, by rw [← hf]; exact hne, hf⟩

/-! ### Fingerprints keep placements apart -/

/-- The components of a placement, in the order in which they are hashed. -/
def components (partitionUID nodeName deviceSerial : Str) (r : ClaimRef) : List Str :=
  [partitionUID, nodeName, deviceSerial, r.ns, r.name, r.uid]

/-- What is fed to the hash for a list of components. -/
def stream (values : List Str) : Str := values.flatMap component

theorem fingerprint_some (partitionUID nodeName deviceSerial : Str) (r : ClaimRef) :
    fingerprint partitionUID nodeName deviceSerial (some r) =
      if [] ∈ components partitionUID nodeName deviceSerial r then []
      else hexEncode (sha256 (stream (components partitionUID nodeName deviceSerial r))) := by
  simp only [fingerprint, components, stream, List.mem_cons, List.not_mem_nil, or_false, List.flatMap_cons,
    List.flatMap_nil, List.append_nil, List.append_assoc, eq_comm]

theorem component_prefixCode : Lib.PrefixCode (fun value : Str => value.length < 2 ^ 64) component :=
  beUInt64_prefixCode.lengthPrefixed

theorem stream_inj {values values' : List Str} (hlen : ∀ v ∈ values, v.length < 2 ^ 64)
    (hlen' : ∀ v ∈ values', v.length < 2 ^ 64) (h : stream values = stream values') : values = values' := by
  have hne : ∀ v : Str, v.length < 2 ^ 64 → component v ≠ [] := by
    intro v _ hnil
    have hlength := congrArg List.length hnil
    simp [component, beUInt64] at hlength
  exact component_prefixCode.flatMap_inj hne hlen hlen' h

theorem fingerprint_eq {partitionUID nodeName deviceSerial : Str} {claimRef : Option ClaimRef}
    (h : fingerprint partitionUID nodeName deviceSerial claimRef ≠ []) : ∃ r, claimRef = some r ∧
      fingerprint partitionUID nodeName deviceSerial claimRef =
        hexEncode (sha256 (stream (components partitionUID nodeName deviceSerial r))) := by
  cases claimRef with
  | none => exact absurd rfl h
  | some r =>
    refine ⟨r, rfl, ?_⟩
    rw [fingerprint_some] at h ⊢
    by_cases hmissing : [] ∈ components partitionUID nodeName deviceSerial r
    · rw [if_pos hmissing] at h
      exact absurd rfl h
    · rw [if_neg hmissing]

/-- Equal fingerprints that are not empty have one stream behind them, if the hash has no collision there. -/
theorem components_eq {u n d u' n' d' : Str} {r r' : ClaimRef} (hlen : ∀ v ∈ components u n d r, v.length < 2 ^ 64)
    (hlen' : ∀ v ∈ components u' n' d' r', v.length < 2 ^ 64)
    (hsha : sha256 (stream (components u n d r)) = sha256 (stream (components u' n' d' r')) →
      stream (components u n d r) = stream (components u' n' d' r'))
    (h : fingerprint u n d (some r) = fingerprint u' n' d' (some r')) (hne : fingerprint u n d (some r) ≠ []) :
    components u n d r = components u' n' d' r' := by
  obtain ⟨_, hr, heq⟩ := fingerprint_eq hne
  cases hr
  obtain ⟨_, hr', heq'⟩ := fingerprint_eq (h ▸ hne)
  cases hr'
  rw [heq, heq'] at h
  exact stream_inj hlen hlen' (hsha (hexEncode_inj h))

/-- What the authorization of a partition is about. -/
def bound (p : NVMePartition) : Str × Str × Str × Option ClaimRef :=
  (p.metadata.uid, p.spec.nodeName, p.spec.parentDeviceSerialNumber, p.spec.claimRef)

/-- **A fingerprint binds all six components.**  Its stream tells them apart; two placements of which one has all
its components have the same fingerprint only if they are the same; and an authorization that is carried over
to a partition with another placement is refused. -/
theorem fingerprint_binds (u n d u' n' d' : Str) (r r' : ClaimRef)
    (hlen : ∀ v ∈ components u n d r, v.length < 2 ^ 64) (hlen' : ∀ v ∈ components u' n' d' r', v.length < 2 ^ 64)
    (hsha : sha256 (stream (components u n d r)) = sha256 (stream (components u' n' d' r')) →
      stream (components u n d r) = stream (components u' n' d' r')) :
    (stream (components u n d r) = stream (components u' n' d' r') → (u, n, d, r) = (u', n', d', r')) ∧
      (fingerprint u n d (some r) = fingerprint u' n' d' (some r') → [] ∉ components u n d r →
        (u, n, d, r) = (u', n', d', r')) ∧
      ∀ p p' : NVMePartition, bound p = (u, n, d, some r) → bound p' = (u', n', d', some r') →
        isAuthorized p = true → p'.status.placementFingerprint = p.status.placementFingerprint →
        (u, n, d, r) ≠ (u', n', d', r') → isAuthorized p' = false := by
  have hsame : components u n d r = components u' n' d' r' → (u, n, d, r) = (u', n', d', r') := by
    intro h
    simp only [components, List.cons.injEq, and_true] at h
    obtain ⟨rfl, rfl, rfl, hns, hname, huid⟩ := h
    rw [show r = r' by cases r; cases r'; simp_all]
  refine ⟨fun h => hsame (stream_inj hlen hlen' h), ?_, ?_⟩
  · intro h hfull
    have hne : fingerprint u n d (some r) ≠ [] := by
      simp only [components, List.mem_cons, List.not_mem_nil, or_false, not_or] at hfull
      obtain ⟨hu, hn, hd, hns, hname, huid⟩ := hfull
      exact fingerprint_ne_nil (Ne.symm hu) (Ne.symm hn) (Ne.symm hd) ⟨Ne.symm hns, Ne.symm hname, Ne.symm huid⟩
    exact hsame (components_eq hlen hlen' hsha h hne)
  · intro p p' hp hp' hauth hcopied hother
    simp only [bound, Prod.mk.injEq] at hp hp'
    obtain ⟨rfl, rfl, rfl, hr⟩ := hp
    obtain ⟨rfl, rfl, rfl, hr'⟩ := hp'
    by_contra hauth'
    obtain ⟨-, -, -, -, hf, hne⟩ := isAuthorized_iff.1 hauth
    obtain ⟨-, -, -, -, hf', -⟩ := isAuthorized_iff.1 (Bool.not_eq_false _ ▸ hauth')
    rw [hr] at hf
    rw [hr'] at hf'
    apply hother
    apply hsame
    apply components_eq hlen hlen' hsha
    · rw [← hf, ← hf', hcopied]
    · rw [← hf]
      exact hne

/-- Placements of one partition on two nodes, for the digests that the hash really has. -/
theorem fingerprint_binds_nodes :
    fingerprint "u" "n" "s" (some ⟨"a", "b", "c"⟩) ≠ fingerprint "u" "m" "s" (some ⟨"a", "b", "c"⟩) := by
  have hsha : sha256 (stream (components "u" "n" "s" ⟨"a", "b", "c"⟩)) ≠
      sha256 (stream (components "u" "m" "s" ⟨"a", "b", "c"⟩)) := by decide +kernel
  intro h
  have hbinds := fingerprint_binds "u" "n" "s" "u" "m" "s" ⟨"a", "b", "c"⟩ ⟨"a", "b", "c"⟩ (by decide) (by decide)
    fun heq => absurd heq hsha
  exact absurd (hbinds.2.1 h (by decide)) (by decide)

/-- Two placements that lack their partition have the same fingerprint, which is empty. -/
theorem fingerprint_missing :
    fingerprint [] "n" "s" (some ⟨"a", "b", "c"⟩) = fingerprint [] "m" "s" (some ⟨"a", "b", "c"⟩) ∧
      components [] "n" "s" ⟨"a", "b", "c"⟩ ≠ components [] "m" "s" ⟨"a", "b", "c"⟩ := by decide

end PlacementAuth

end Distort
