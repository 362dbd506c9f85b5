import Distort.Csi.Delete
import Distort.Lib.Run

/-!
Volume IDs of old releases: `deleteLegacyVolume` of `controller_server.go`.

Such an ID is only a name, so it is looked up among the partitions of all namespaces.

* `legacy_deletion_exact` — at most one partition is deleted, one whose recorded identity is the ID, and none with an
  error where several have this identity; exactly if a partition of this name that has no identity yet is not alone, and
  several partitions with the identity do not leave a single one of this name;
* `namesake_deleted` — where that is not so.
-/

namespace Distort.Csi

open Go Lib Lib.Kube Api Proc Lib.Prog

/-! ### What is recorded -/

/-- The backend identity that is recorded: the external ID, or what the NQN of an older export says. -/
def recordedIdentity (p : NVMePartition) : Option Str :=
  if p.status.externalID ≠ [] then some p.status.externalID
  else if (VolumeIdentity.externalIDFromNQN p.status.nqn).2 then some (VolumeIdentity.externalIDFromNQN p.status.nqn).1
  else none

/-- Nothing is recorded, and nothing else is in the way. -/
def unrecorded (volumeID : Str) (p : NVMePartition) : Bool :=
  recordedIdentity p = none &&
    (p.status.nqn = [] || p.status.nqn = VolumeIdentity.nqnPrefix || p.status.nqn = volumeID)

/-- The partitions with this name and this identity, those with this name that have no identity, and those with another
name that have this identity. -/
def own (volumeID : Str) (p : NVMePartition) : Bool := p.metadata.name = volumeID && recordedIdentity p = some volumeID
def blank (volumeID : Str) (p : NVMePartition) : Bool := p.metadata.name = volumeID && unrecorded volumeID p
def foreign (volumeID : Str) (p : NVMePartition) : Bool := p.metadata.name ≠ volumeID && recordedIdentity p = some volumeID

theorem externalIDFromNQN_false {nqn : Str} (h : (VolumeIdentity.externalIDFromNQN nqn).2 = false) :
    (VolumeIdentity.externalIDFromNQN nqn).1 = if nqn = VolumeIdentity.nqnPrefix then [] else nqn := by
  simp only [VolumeIdentity.externalIDFromNQN, cutPrefix] at h ⊢
  by_cases hpre : hasPrefix nqn VolumeIdentity.nqnPrefix = true
  · obtain ⟨rest, rfl⟩ := List.isPrefixOf_iff_prefix.1 hpre
    simp only [hpre, if_true, List.drop_left, Bool.true_and, decide_eq_false_iff_not, ne_eq, not_not] at h ⊢
    rw [h, List.append_nil, if_pos rfl]
  · have hne : nqn ≠ VolumeIdentity.nqnPrefix := by
      rintro rfl
      exact hpre (List.isPrefixOf_iff_prefix.2 (List.prefix_refl _))
    rw [if_neg hpre, if_neg hne]

/-- **The code takes those of this name whose identity is the ID or is missing.** -/
theorem legacyMatches_eq (volumeID : Str) (ps : List NVMePartition) :
    legacyMatches volumeID ps = ps.filter fun p => own volumeID p || blank volumeID p := by
  unfold legacyMatches
  congr 1
  funext p
  unfold own blank
  rw [← Bool.and_or_distrib_left]
  congr 1
  unfold unrecorded recordedIdentity
  by_cases hexternal : p.status.externalID = []
  · simp only [hexternal, if_true, ne_eq, not_true_eq_false, if_false]
    cases hfound : (VolumeIdentity.externalIDFromNQN p.status.nqn).2 with
    | true =>
      have hne : (VolumeIdentity.externalIDFromNQN p.status.nqn).1 ≠ [] := by
        simp only [VolumeIdentity.externalIDFromNQN, Bool.and_eq_true, decide_eq_true_eq] at hfound
        exact hfound.2
      simp [hne]
    | false =>
      rw [externalIDFromNQN_false hfound]
      by_cases hpre : p.status.nqn = VolumeIdentity.nqnPrefix
      · simp [hpre]
      · simp [hpre]
  · simp [hexternal]

theorem length_legacyMatches (volumeID : Str) (ps : List NVMePartition) :
    (legacyMatches volumeID ps).length = ps.countP (own volumeID) + ps.countP (blank volumeID) ∧
    ps.countP (fun p => recordedIdentity p = some volumeID) = ps.countP (own volumeID) + ps.countP (foreign volumeID) := by
  rw [legacyMatches_eq, ← List.countP_eq_length_filter]
  induction ps with
  | nil => exact ⟨rfl, rfl⟩
  | cons p ps ih =>
    obtain ⟨ih1, ih2⟩ := ih
    have hapart : ¬(own volumeID p = true ∧ blank volumeID p = true) := by
      simp only [own, blank, unrecorded, Bool.and_eq_true, decide_eq_true_eq]
      rintro ⟨⟨-, hsome⟩, -, hnone, -⟩
      rw [hsome] at hnone
      cases hnone
    simp only [List.countP_cons]
    constructor
    · cases hown : own volumeID p <;> cases hblank : blank volumeID p
      · simp only [Bool.or_false, Bool.false_eq_true, if_false]
        omega
      · simp only [Bool.or_true, Bool.false_eq_true, if_true, if_false]
        omega
      · simp only [Bool.or_false, Bool.false_eq_true, if_true, if_false]
        omega
      · exact absurd ⟨hown, hblank⟩ hapart
    · by_cases hname : p.metadata.name = volumeID <;> by_cases hid : recordedIdentity p = some volumeID <;>
      · simp only [own, foreign, hname, hid, decide_true, decide_false, ne_eq, not_true_eq_false, not_false_eq_true,
          Bool.and_true, Bool.and_false, Bool.false_eq_true, if_true, if_false]
        omega

/-! ### Runs -/

/-- The partition whose deletion is requested. -/
def deleted : Call → Option NVMePartition
  | .api (.delete .partition p) => some p
  | _ => none

def deletions (es : List (Event Call Call.Resp)) : List NVMePartition := es.filterMap fun e => deleted e.1

variable {es : List (Event Call Call.Resp)}

theorem deletions_of_looks (h : ∀ e ∈ es, looks e.1 = true) : deletions es = [] := by
  refine List.filterMap_eq_nil_iff.2 fun e he => ?_
  obtain ⟨c, r⟩ := e
  have hlooks : looks c = true := h _ he
  unfold looks at hlooks
  split at hlooks
  · rfl
  · rfl
  · rfl
  · cases hlooks

section

variable [StdLib] {polls : ℕ} {p : NVMePartition}

/-- **At most the partition itself is deleted.** -/
theorem deletePartitionAndWait_deletions {q : Proc (Except Status Unit)}
    (h : Leads ((deletePartitionAndWait polls p).check fail done) es q) : deletions es = [] ∨ deletions es = [p] := by
  have hquiet : ∀ {α : Type} {p q : Proc α} {es : List (Event Call Call.Resp)},
      p.Only (looks ·) → Leads p es q → deletions es = [] :=
    fun hp hl => deletions_of_looks (hl.only hp)
  have hfail : ∀ status : Status, (fail status : Proc (Except Status Unit)).Only (looks ·) := only_fail
  rcases h.call_inv with ⟨rfl, -⟩ | ⟨attachment, es', rfl, hafter⟩
  · exact .inl rfl
  clear h
  show deletions es' = [] ∨ deletions es' = [p]
  rcases attachment with err | a
  · change Leads (check (if !err.isNotFound then _ else _) fail done) es' q at hafter
    by_cases hfound : err.isNotFound = true
    · rw [if_neg (by simp [hfound])] at hafter
      rcases hafter.call_inv with ⟨rfl, -⟩ | ⟨answer, es'', rfl, hwaits⟩
      · exact .inl rfl
      -- all that follows the request is a wait
      have hrest : ∀ r : Except Err Unit, ((ignoringNotFound (.ret r)).check
          (fun err => fail (.errorf .internal "failed to delete partition: %v" [.str err.text])) fun _ =>
            (waitForPartitionDeleted p.key p.metadata.uid polls).check (fun err => fail (deletionStatus err)) done :
          Proc (Except Status Unit)).Only (looks ·) := by
        intro r
        refine .check (Prog.Only.next trivial only_done) (fun _ => hfail _) fun _ => ?_
        exact (waitForPartitionDeleted_only (fun _ => id) p.key p.metadata.uid polls).check (fun _ => hfail _) only_done
      have hnone : deletions es'' = [] := hquiet ((hrest answer).check hfail only_done) hwaits
      refine .inr ?_
      show p :: deletions es'' = [p]
      rw [hnone]
    · rw [if_pos (by simp [hfound])] at hafter
      exact .inl (hquiet ((hfail _).check hfail only_done) hafter)
  · exact .inl (hquiet (hfail _) hafter)

/-- Where the list is answered with these partitions, at most one is deleted, one of them with the ID as its recorded
identity, and none but an error is the outcome where several have it. -/
def LegacyExact (polls : ℕ) (volumeID : Str) (ps : List NVMePartition) : Prop :=
  ∀ es q, Leads (deleteLegacyVolume polls volumeID) (⟨.api (.list .partition .api), .ok ps⟩ :: es) q →
    (deletions es).length ≤ 1 ∧ (∀ p ∈ deletions es, p ∈ ps ∧ recordedIdentity p = some volumeID) ∧
    (1 < ps.countP (fun p => recordedIdentity p = some volumeID) → deletions es = [] ∧ ∃ status, q = .ret (.error status))

variable {volumeID : Str} {ps : List NVMePartition}

theorem leads_listed {q : Proc (Except Status Unit)} :
    Leads (deleteLegacyVolume polls volumeID) (⟨.api (.list .partition .api), .ok ps⟩ :: es) q ↔
      Leads (match legacyMatches volumeID ps with
        | [] => done ()
        | [p] => (deletePartitionAndWait polls p).check fail done
        | _ => fail (.errorf .failedPrecondition
            "legacy volume ID %q matches multiple partitions; refusing ambiguous deletion" [.str volumeID])) es q := by
  constructor
  · intro h
    cases h with
    | step h => exact h
  · exact fun h => .step h

theorem deletePartitionAndWait_deletes (polls : ℕ) (p : NVMePartition) : ∃ es q,
    Leads ((deletePartitionAndWait polls p).check fail done) es q ∧ deletions es = [p] :=
  ⟨[⟨.api (.get .attachment .api (attachmentKey p)), .error ⟨.notFound, []⟩⟩, ⟨.api (.delete .partition p), .ok ()⟩], _,
    .step (.step (.refl _)), rfl⟩

omit [StdLib] in
theorem mem_of_single (h : legacyMatches volumeID ps = [p]) : p ∈ ps ∧ (own volumeID p = true ∨ blank volumeID p = true) := by
  have hmem : p ∈ legacyMatches volumeID ps := by rw [h]; exact List.mem_singleton_self p
  rw [legacyMatches_eq, List.mem_filter, Bool.or_eq_true] at hmem
  exact hmem

/-- **Legacy deletion is exact** except where the only match has no identity, or where several have it and there are not
several matches. -/
theorem legacy_deletion_exact (polls : ℕ) (volumeID : Str) (ps : List NVMePartition) : LegacyExact polls volumeID ps ↔
      ¬(ps.countP (own volumeID) = 0 ∧ ps.countP (blank volumeID) = 1) ∧
      (2 ≤ ps.countP (own volumeID) + ps.countP (foreign volumeID) →
        2 ≤ ps.countP (own volumeID) + ps.countP (blank volumeID)) := by
  obtain ⟨hlength, hcount⟩ := length_legacyMatches volumeID ps
  have hafter : LegacyExact polls volumeID ps ↔ _ := forall₂_congr fun es q => imp_congr_left leads_listed
  rw [hafter, hcount]
  match hmatches : legacyMatches volumeID ps with
  | [] =>
    rw [hmatches, List.length_nil] at hlength
    constructor
    · intro h
      obtain ⟨-, -, hseveral⟩ := h [] _ (.refl _)
      refine ⟨by omega, fun htwo => ?_⟩
      obtain ⟨-, status, hq⟩ := hseveral htwo
      cases hq
    · rintro ⟨-, hseveral⟩ es q h
      obtain ⟨rfl, -⟩ := h.ret_inv
      refine ⟨Nat.zero_le 1, fun p hp => absurd hp List.not_mem_nil, fun htwo => ?_⟩
      have := hseveral htwo
      omega
  | [p] =>
    rw [hmatches, List.length_singleton] at hlength
    obtain ⟨hmem, hkind⟩ := mem_of_single hmatches
    constructor
    · intro h
      obtain ⟨es, q, hrun, hdeleted⟩ := deletePartitionAndWait_deletes polls p
      obtain ⟨-, hown, hseveral⟩ := h es q hrun
      rw [hdeleted] at hown hseveral
      obtain ⟨-, hid⟩ := hown p (List.mem_singleton_self p)
      have hpos : 0 < ps.countP (own volumeID) := by
        refine List.countP_pos_iff.2 ⟨p, hmem, hkind.resolve_right fun hblank => ?_⟩
        simp [blank, unrecorded, hid] at hblank
      refine ⟨by omega, fun htwo => ?_⟩
      obtain ⟨hnil, -⟩ := hseveral htwo
      cases hnil
    · rintro ⟨hrecorded, hseveral⟩ es q h
      have hown : own volumeID p = true := by
        refine hkind.resolve_right fun hblank => hrecorded ?_
        have hpos : 0 < ps.countP (blank volumeID) := List.countP_pos_iff.2 ⟨p, hmem, hblank⟩
        omega
      have hid : recordedIdentity p = some volumeID := by
        simpa using (Bool.and_eq_true_iff.1 hown).2
      have hone : ¬ 1 < ps.countP (own volumeID) + ps.countP (foreign volumeID) := fun htwo => by
        have := hseveral htwo
        omega
      rcases deletePartitionAndWait_deletions h with hnone | hp
      · rw [hnone]
        exact ⟨Nat.zero_le 1, fun p hp => absurd hp List.not_mem_nil, fun htwo => absurd htwo hone⟩
      rw [hp]
      refine ⟨le_rfl, fun p' hp' => ?_, fun htwo => absurd htwo hone⟩
      obtain rfl := List.mem_singleton.1 hp'
      exact ⟨hmem, hid⟩
  | p :: p' :: rest =>
    rw [hmatches, List.length_cons, List.length_cons] at hlength
    constructor
    · intro _
      omega
    · rintro - es q h
      obtain ⟨rfl, rfl⟩ := h.ret_inv
      exact ⟨Nat.zero_le 1, fun p hp => absurd hp List.not_mem_nil, fun _ => ⟨rfl, _, rfl⟩⟩

end

section

attribute [local instance] asciiLib

/-- A partition of a namespace, with the identity that is recorded. -/
def kept (ns name externalID : String) : NVMePartition := ⟨⟨ns, name, [], 0, 0, false, [], [], []⟩, ⟨0, [], [], none, [], [],
  [], [], [], []⟩, { externalID := externalID }⟩

/-- **A partition that merely has the name is deleted**, and so is one whose identity another partition has too. -/
theorem namesake_deleted :
    (∃ es q, Leads (deleteLegacyVolume 0 "data") (⟨.api (.list .partition .api), .ok [kept "a" "data" ""]⟩ :: es) q ∧
      deletions es = [kept "a" "data" ""] ∧ recordedIdentity (kept "a" "data" "") = none) ∧
    (∃ es q, Leads (deleteLegacyVolume 0 "data")
        (⟨.api (.list .partition .api), .ok [kept "a" "data" "data", kept "b" "other" "data"]⟩ :: es) q ∧
      deletions es = [kept "a" "data" "data"] ∧ recordedIdentity (kept "a" "data" "data") = some "data" ∧
      recordedIdentity (kept "b" "other" "data") = some "data") := by
  constructor
  · obtain ⟨es, q, hrun, hdeleted⟩ := deletePartitionAndWait_deletes 0 (kept "a" "data" "")
    exact ⟨es, q, leads_listed.2 hrun, hdeleted, by decide⟩
  · obtain ⟨es, q, hrun, hdeleted⟩ := deletePartitionAndWait_deletes 0 (kept "a" "data" "data")
    exact ⟨es, q, leads_listed.2 hrun, hdeleted, by decide, by decide⟩

end

end Distort.Csi
