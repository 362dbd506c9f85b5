import Mathlib.Data.List.Nodup
import Distort.Manager.Alone
import Distort.Manager.Claim

/-!
A claim is bound to the one device that has its serial number, or to none.

* `binding_exact` — after a reconciliation that is alone the claim is active if and only if exactly one present device
  has its serial number and this device is the claim's own, or is nobody's; then the device and no other one refers to
  the claim, and what the claim does not own is as it was.  Otherwise no device is written.
-/

namespace Distort.Manager.Claim

open Go Lib Lib.Kube Lib.Prog Api Proc Agreement
open Cluster (alone)

variable {times : Set ℤ} {w : Cluster} {claim : NVMeDeviceClaim} {d : NVMeDevice}

/-! ### Writes -/

/-- The status of a device is written as it is stored; the other devices stay as they are. -/
theorem patchDevice_eq (hw : w.devices.Ok) (hd : d ∈ w.devices.objects) (status : NVMeDeviceStatus) :
    w.patchDevice d { d with status } = (.ok (w.devices.stamp { d with status }),
        { w with devices := w.devices.put d.key (some (w.devices.stamp { d with status })) }) := by
  rw [Cluster.patchDevice, Store.patchStatus_stored NVMeDeviceStatus.merge_base (hw.find_eq hd)]

theorem patchDevice_ok (hw : w.devices.Ok) (d : NVMeDevice) (status : NVMeDeviceStatus) :
    (w.devices.put d.key (some (w.devices.stamp { d with status }))).Ok := by
  refine hw.put ?_
  rintro _ ⟨⟩
  exact ⟨rfl, rfl⟩

/-- What becomes of each device. -/
structure Rewrites (w : Cluster) (f : NVMeDevice → NVMeDevice) (w' : Cluster) : Prop where
  devices : w'.devices.objects = w.devices.objects.map f
  key : ∀ x ∈ w.devices.objects, (f x).key = x.key
  ok : w'.devices.Ok
  claims : w'.claims = w.claims

theorem Rewrites.refl (hw : w.devices.Ok) : Rewrites w id w := ⟨by simp, fun _ _ => rfl, hw, rfl⟩

theorem Rewrites.trans {w' w'' : Cluster} {f g : NVMeDevice → NVMeDevice} (h : Rewrites w f w') (h' : Rewrites w' g w'') :
    Rewrites w (g ∘ f) w'' := by
  refine ⟨by rw [h'.devices, h.devices, List.map_map], fun x hx => ?_, h'.ok, h'.claims.trans h.claims⟩
  have hfx : f x ∈ w'.devices.objects := by
    rw [h.devices]
    exact List.mem_map_of_mem hx
  exact (h'.key _ hfx).trans (h.key x hx)

theorem rewrites_patch (hw : w.devices.Ok) (d : NVMeDevice) (status : NVMeDeviceStatus) :
    Rewrites w (fun x => if x.key = d.key then w.devices.stamp { d with status } else x)
      { w with devices := w.devices.put d.key (some (w.devices.stamp { d with status })) } := by
  refine ⟨Store.put_some _ _ _, fun x _ => ?_, patchDevice_ok hw d status, rfl⟩
  split
  · rename_i hkey
    rw [hkey]
    rfl
  · rfl

/-! ### The release of the other devices -/

/-- The devices of the list that are the claim's own, except the one with the name, lose their reference. -/
structure Releases (claim : NVMeDeviceClaim) (name : Str) (l : List NVMeDevice) (w : Cluster) (f : NVMeDevice → NVMeDevice) :
    Prop where
  released : ∀ x ∈ w.devices.objects, x ∈ l → x.metadata.name ≠ name → claimOwnsDevice claim x = true →
    (f x).status = (released x).status
  kept : ∀ x ∈ w.devices.objects, (x ∉ l ∨ x.metadata.name = name ∨ claimOwnsDevice claim x = false) → f x = x

variable {l : List NVMeDevice}

theorem releaseOthers_ensures (hw : w.devices.Ok) {name : Str} (hl : (l.map Object.key).Nodup)
    (hstored : ∀ x ∈ l, x.metadata.name ≠ name → x ∈ w.devices.objects) :
    Ensures (alone times) (fun r w' => r = .ok () ∧ ∃ f, Rewrites w f w' ∧ Releases claim name l w f)
      (releaseOthers claim name l) w := by
  induction l generalizing w with
  | nil => exact .ret ⟨rfl, id, .refl hw, nofun, fun _ _ _ => rfl⟩
  | cons d l ih =>
    rw [List.map_cons, List.nodup_cons] at hl
    unfold releaseOthers
    split
    · rename_i hrelease
      simp only [Bool.and_eq_true, decide_eq_true_eq] at hrelease
      have hd : d ∈ w.devices.objects := hstored d List.mem_cons_self hrelease.1
      -- the rest of the list is still stored: the keys differ
      have hne : ∀ x ∈ l, x.key ≠ d.key := by
        intro x hx hkey
        exact hl.1 (hkey ▸ List.mem_map_of_mem hx)
      have hpatch := rewrites_patch hw d (released d).status
      have hrest := ih hpatch.ok hl.2 (fun x hx hname => by
        rw [hpatch.devices]
        exact List.mem_map.2 ⟨x, hstored x (List.mem_cons_of_mem d hx) hname, if_neg (hne x hx)⟩)
      unfold releaseDevice
      rw [hrelease.2]
      refine .check (.check (ensures_write (fun _ _ => Iff.rfl) ?_))
      have hreleased : released d = { d with status := (released d).status } := rfl
      rw [hreleased, patchDevice_eq hw hd]
      refine ⟨_, rfl, .ret ⟨(), rfl, hrest.mono ?_⟩⟩
      rintro r w' ⟨rfl, f, hf, hfl⟩
      have hfirst : ∀ x ∈ w.devices.objects, x.key = d.key → x = d := fun x hx hk => hw.eq_of_key hx hd hk
      have hwritten : ∀ {x}, x ∈ w.devices.objects →
          (if x.key = d.key then w.devices.stamp { d with status := (released d).status } else x) ∈
            w.devices.objects.map fun x => if x.key = d.key then w.devices.stamp { d with status := (released d).status } else x :=
        fun hx => List.mem_map_of_mem hx
      rw [← hpatch.devices] at hwritten
      refine ⟨rfl, _, hpatch.trans hf, ?_, ?_⟩
      · intro x hx hxl hname howns
        by_cases hk : x.key = d.key
        · obtain rfl := hfirst x hx hk
          have hmem := hwritten hx
          rw [if_pos rfl] at hmem
          rw [Function.comp_apply, if_pos rfl, hfl.kept _ hmem (.inr (.inr rfl))]
          rfl
        · have hxl' : x ∈ l := by
            rcases List.mem_cons.1 hxl with rfl | h
            · exact absurd rfl hk
            · exact h
          have hmem := hwritten hx
          rw [if_neg hk] at hmem
          simp only [Function.comp_apply, if_neg hk]
          exact hfl.released x hmem hxl' hname howns
      · intro x hx hcase
        have hk : x.key ≠ d.key := by
          intro hk
          obtain rfl := hfirst x hx hk
          rcases hcase with h | h | h
          · exact h List.mem_cons_self
          · exact hrelease.1 h
          · rw [hrelease.2] at h
            cases h
        have hmem := hwritten hx
        rw [if_neg hk] at hmem
        simp only [Function.comp_apply, if_neg hk]
        exact hfl.kept x hmem (hcase.imp_left fun h hl => h (List.mem_cons_of_mem d hl))
    · rename_i hkeep
      refine (ih hw hl.2 fun x hx => hstored x (List.mem_cons_of_mem d hx)).mono ?_
      rintro r w' ⟨rfl, f, hf, hfl⟩
      have hd : d.metadata.name = name ∨ claimOwnsDevice claim d = false := by
        simp only [Bool.and_eq_true, decide_eq_true_eq, not_and, Bool.not_eq_true] at hkeep
        by_cases hname : d.metadata.name = name
        · exact .inl hname
        · exact .inr (hkeep hname)
      refine ⟨rfl, f, hf, fun x hx hxl hname howns => ?_, fun x hx hcase => ?_⟩
      · rcases List.mem_cons.1 hxl with rfl | hxl
        · rcases hd with h | h
          · exact absurd h hname
          · rw [howns] at h
            cases h
        · exact hfl.released x hx hxl hname howns
      · refine hfl.kept x hx ?_
        rcases hcase with h | h
        · exact .inl fun hl => h (List.mem_cons_of_mem d hl)
        · exact .inr h

/-! ### Which device a claim gets -/

variable (via : Reader)

section binding

variable [StdLib]

/-- The device has the serial number of the claim and is there. -/
def Fits (claim : NVMeDeviceClaim) (d : NVMeDevice) : Prop :=
  equalFold d.spec.serialNumber claim.spec.serialNumber = true ∧ deviceIsPresent d = true

/-- The device is the claim's own, or nobody's. -/
def Free (claim : NVMeDeviceClaim) (d : NVMeDevice) : Prop :=
  d.status.claimRef = some (reference claim) ∨
  d.status.claimRef = none ∧ d.status.state ≠ .claimed ∨
  d.status.claimRef = none ∧ claim.status.active = true ∧ claim.status.matchedDevice = d.metadata.name

/-- The only device that fits, and the claim may have it. -/
structure Gets (w : Cluster) (claim : NVMeDeviceClaim) (d : NVMeDevice) : Prop where
  mem : d ∈ w.devices.objects
  fits : Fits claim d
  only : ∀ x ∈ w.devices.objects, Fits claim x → x = d
  free : Free claim d

/-- The device is bound to the claim, what else the claim owned is released, and the rest is as it was. -/
structure BoundTo (w : Cluster) (claim : NVMeDeviceClaim) (d : NVMeDevice) (w' : Cluster) : Prop where
  same : w'.devices.objects.map Object.key = w.devices.objects.map Object.key
  bound : ∃ d' ∈ w'.devices.objects, d'.key = d.key ∧ d'.spec = d.spec ∧ d'.status = (bound claim d).status ∧
    ∀ x ∈ w'.devices.objects, x.status.claimRef = some (reference claim) → x = d'
  kept : ∀ x ∈ w.devices.objects, x ≠ d → x.status.claimRef ≠ some (reference claim) → x ∈ w'.devices.objects

omit [StdLib] in
theorem ownedByAnother_iff : ownedByAnother claim d = false ↔ Free claim d := by
  unfold ownedByAnother Free
  by_cases howns : claimOwnsDevice claim d = true
  · have href := claimOwnsDevice_iff.1 howns
    simp [howns, href]
  have href : d.status.claimRef ≠ some (reference claim) := fun h => howns (claimOwnsDevice_iff.2 h)
  rw [Bool.not_eq_true] at howns
  cases hnone : d.status.claimRef with
  | none =>
    by_cases hstate : d.status.state = .claimed
    · simp [howns, hstate]
    · simp [hstate]
  | some ref =>
    rw [hnone] at href
    simp [howns, href]

theorem fitting_cases (claim : NVMeDeviceClaim) (hw : w.devices.Ok) (hl : l.Perm w.devices.objects) :
    match (l.filter fun d => equalFold d.spec.serialNumber claim.spec.serialNumber).filter deviceIsPresent with
    | [] => ∀ d, ¬ Gets w claim d
    | [d] => d ∈ w.devices.objects ∧ Fits claim d ∧ ∀ x ∈ w.devices.objects, Fits claim x → x = d
    | _ :: _ :: _ => ∀ d, ¬ Gets w claim d := by
  have hmem : ∀ x, x ∈ (l.filter fun d => equalFold d.spec.serialNumber claim.spec.serialNumber).filter deviceIsPresent ↔
      x ∈ w.devices.objects ∧ Fits claim x := by
    intro x
    rw [List.mem_filter, List.mem_filter, hl.mem_iff, and_assoc]
    rfl
  have hnodup : ((l.filter fun d => equalFold d.spec.serialNumber claim.spec.serialNumber).filter deviceIsPresent).Nodup :=
    ((hl.nodup_iff.2 (List.Nodup.of_map _ hw.keys)).filter _).filter _
  cases hfilter : (l.filter fun d => equalFold d.spec.serialNumber claim.spec.serialNumber).filter deviceIsPresent with
  | nil =>
    intro d hd
    have hin := (hmem d).2 ⟨hd.mem, hd.fits⟩
    rw [hfilter] at hin
    cases hin
  | cons a rest =>
    rw [hfilter] at hmem hnodup
    obtain ⟨ha, hfits⟩ := (hmem a).1 List.mem_cons_self
    cases rest with
    | nil => exact ⟨ha, hfits, fun x hx hxfits => List.mem_singleton.1 ((hmem x).2 ⟨hx, hxfits⟩)⟩
    | cons b rest =>
      intro d hd
      obtain ⟨hb, hbfits⟩ := (hmem b).1 (List.mem_cons_of_mem a List.mem_cons_self)
      have hab : a = b := (hd.only a ha hfits).trans (hd.only b hb hbfits).symm
      exact (List.nodup_cons.1 hnodup).1 (hab ▸ List.mem_cons_self)

omit [StdLib] in
theorem updateClaimStatus_ensures (hclaim : w.claims.find claim.key = some claim) (b : Binding) :
    Ensures (alone times) (fun r w' => r = .ok () ∧ w'.devices = w.devices ∧
      ∃ claim', w'.claims.find claim.key = some claim' ∧ claim'.status.active = b.active)
      (updateClaimStatus via claim b) w := by
  refine .check (ensures_get (fun _ _ => Iff.rfl) ⟨claim, congrArg found hclaim, ?_⟩)
  refine .check (ensures_write (fun _ _ => Iff.rfl) ?_)
  rw [Cluster.patchClaim, Store.patchStatus_stored NVMeDeviceClaimStatus.merge_base hclaim]
  refine ⟨_, rfl, .ret ⟨rfl, rfl, _, Store.find_put hclaim ?_, rfl⟩⟩
  rintro _ ⟨⟩
  rfl

theorem unbound_ensures (hclaim : w.claims.find claim.key = some claim) (hnone : ∀ d, ¬ Gets w claim d)
    (reason message : Str) :
    Ensures (alone times) (fun r w' => r = .ok claimRequeueInterval ∧ ∃ claim', w'.claims.find claim.key = some claim' ∧
      (claim'.status.active = true ↔ ∃ d, Gets w claim d) ∧ (∀ d, Gets w claim d → BoundTo w claim d w') ∧
      ((∀ d, ¬ Gets w claim d) → w'.devices = w.devices))
      ((updateClaimStatus via claim (unbound claim reason message)).check fail fun _ => done claimRequeueInterval) w := by
  refine .check ((updateClaimStatus_ensures via hclaim _).mono ?_)
  rintro _ w' ⟨rfl, hdevices, claim', hclaim', hactive⟩
  refine ⟨(), rfl, .ret ⟨rfl, claim', hclaim', ?_, fun d hd => absurd hd (hnone d), fun _ => hdevices⟩⟩
  rw [hactive]
  constructor
  · intro h
    cases h
  · rintro ⟨d, hd⟩
    exact absurd hd (hnone d)

theorem bound_ensures (hw : w.devices.Ok) (hscope : ∀ d ∈ w.devices.objects, d.metadata.ns = [])
    (hclaim : w.claims.find claim.key = some claim)
    (hserial : ∀ d ∈ w.devices.objects, d.status.claimRef = some (reference claim) →
      equalFold d.spec.serialNumber claim.spec.serialNumber = true)
    (hl : l.Perm w.devices.objects) (hd : Gets w claim d) :
    Ensures (alone times) (fun r w' => r = .ok claimRequeueInterval ∧ ∃ claim', w'.claims.find claim.key = some claim' ∧
      claim'.status.active = true ∧ BoundTo w claim d w')
      ((patchStatus .device d (bound claim d)).check fail fun device =>
        (releaseOthers claim device.metadata.name
          (l.filter fun d => equalFold d.spec.serialNumber claim.spec.serialNumber)).check fail fun _ =>
        (updateClaimStatus via claim ⟨true, device.metadata.name, device.spec.nodeName, .true, "DeviceBound",
          "The claim is bound to an available NVMeDevice"⟩).check fail fun _ => done claimRequeueInterval) w := by
  have hpatch := rewrites_patch hw d (bound claim d).status
  let d' := w.devices.stamp { d with status := (bound claim d).status }
  -- the devices have no namespace, so another name is another device
  have hname : ∀ x ∈ w.devices.objects, x.metadata.name = d.metadata.name ↔ x = d := by
    intro x hx
    refine ⟨fun h => hw.eq_of_key hx hd.mem ?_, fun h => by rw [h]⟩
    simp only [Object.key, hscope x hx, hscope d hd.mem, h]
  have hother : ∀ x ∈ w.devices.objects, x ≠ d → x.key ≠ d.key := fun x hx hne hk => hne (hw.eq_of_key hx hd.mem hk)
  refine .check (ensures_write (fun _ _ => Iff.rfl) ?_)
  have hbound : bound claim d = { d with status := (bound claim d).status } := rfl
  rw [hbound, patchDevice_eq hw hd.mem]
  refine ⟨_, rfl, .check ((releaseOthers_ensures hpatch.ok ?_ ?_).mono ?_)⟩
  · have hkeys := (hl.map Object.key).nodup_iff.2 hw.keys
    exact hkeys.sublist (List.filter_sublist.map _)
  · intro x hx hne
    have hxd : x ∈ w.devices.objects := hl.subset (List.mem_of_mem_filter hx)
    rw [hpatch.devices]
    exact List.mem_map.2 ⟨x, hxd, if_neg (hother x hxd fun h => hne ((hname x hxd).2 h))⟩
  rintro _ w2 ⟨rfl, f, hf, hreleases⟩
  refine ⟨(), rfl, .check ((updateClaimStatus_ensures via ?_ _).mono ?_)⟩
  · rw [hf.claims]
    exact hclaim
  rintro _ w3 ⟨rfl, hdevices, claim', hclaim', hactive⟩
  refine ⟨(), rfl, .ret ⟨rfl, claim', hclaim', hactive, ?_⟩⟩
  have hall := hpatch.trans hf
  have hd' : d' ∈ (w.devices.put d.key (some d')).objects := by
    rw [hpatch.devices]
    exact List.mem_map.2 ⟨d, hd.mem, if_pos rfl⟩
  have hfd : f d' = d' := hreleases.kept d' hd' (.inr (.inl rfl))
  have hstill : ∀ x ∈ w.devices.objects, x ≠ d → x ∈ (w.devices.put d.key (some d')).objects := by
    intro x hx hne
    rw [hpatch.devices]
    exact List.mem_map.2 ⟨x, hx, if_neg (hother x hx hne)⟩
  refine ⟨?_, ⟨d', ?_, rfl, rfl, rfl, ?_⟩, ?_⟩
  · rw [hdevices, hall.devices, List.map_map]
    exact List.map_congr_left hall.key
  · rw [hdevices, hf.devices]
    exact List.mem_map.2 ⟨d', hd', hfd⟩
  · -- whoever still refers to the claim was not released
    intro y hy href
    rw [hdevices, hall.devices] at hy
    obtain ⟨x, hx, rfl⟩ := List.mem_map.1 hy
    by_cases hne : x = d
    · rw [hne, Function.comp_apply, if_pos rfl]
      exact hfd
    rw [Function.comp_apply, if_neg (hother x hx hne)] at href ⊢
    exfalso
    by_cases howns : claimOwnsDevice claim x = true
    · have hin : x ∈ l.filter fun d => equalFold d.spec.serialNumber claim.spec.serialNumber :=
        List.mem_filter.2 ⟨hl.symm.subset hx, hserial x hx (claimOwnsDevice_iff.1 howns)⟩
      have hrel := hreleases.released x (hstill x hx hne) hin (fun h => hne ((hname x hx).1 h)) howns
      rw [hrel] at href
      cases href
    · rw [hreleases.kept x (hstill x hx hne) (.inr (.inr (by simpa using howns)))] at href
      exact howns (claimOwnsDevice_iff.2 href)
  · intro x hx hne href
    have howns : claimOwnsDevice claim x = false := by
      rw [← Bool.not_eq_true, claimOwnsDevice_iff]
      exact href
    rw [hdevices, hf.devices]
    exact List.mem_map.2 ⟨x, hstill x hx hne, hreleases.kept x (hstill x hx hne) (.inr (.inr howns))⟩

/-- **Binding is exact.**  A reconciliation that is alone ends with an active claim if and only if there is a device
that the claim gets; then this device and no other one refers to the claim, and the others that are not the claim's own
are as they were.  Otherwise no device is written. -/
theorem binding_exact (hw : w.devices.Ok) (hscope : ∀ d ∈ w.devices.objects, d.metadata.ns = [])
    (hclaim : w.claims.find claim.key = some claim) (hlive : claim.metadata.deletionTimestamp = false)
    (hfinalizer : claim.containsFinalizer claimFinalizer = true)
    (hserial : ∀ d ∈ w.devices.objects, d.status.claimRef = some (reference claim) →
      equalFold d.spec.serialNumber claim.spec.serialNumber = true) :
    Ensures (alone times) (fun r w' => r = .ok claimRequeueInterval ∧ ∃ claim', w'.claims.find claim.key = some claim' ∧
      (claim'.status.active = true ↔ ∃ d, Gets w claim d) ∧ (∀ d, Gets w claim d → BoundTo w claim d w') ∧
      ((∀ d, ¬ Gets w claim d) → w'.devices = w.devices)) (reconcile via claim.key) w := by
  refine .check (ensures_get (fun _ _ => Iff.rfl) ⟨claim, congrArg found hclaim, ?_⟩)
  rw [hlive, ensureFinalizer, if_pos hfinalizer]
  refine .check (.ret ⟨claim, rfl, ?_⟩)
  refine .check (ensures_list (fun _ _ => Iff.rfl) fun l hl => ⟨l, rfl, ?_⟩)
  have hcases := fitting_cases claim hw hl
  dsimp only
  split at hcases
  · rename_i hfilter
    simp only [hfilter]
    exact unbound_ensures via hclaim hcases _ _
  · rename_i d hfilter
    simp only [hfilter]
    obtain ⟨hmem, hfits, honly⟩ := hcases
    split
    · rename_i hother
      refine unbound_ensures via hclaim (fun x hx => ?_) _ _
      obtain rfl := honly x hx.mem hx.fits
      rw [ownedByAnother_iff.2 hx.free] at hother
      cases hother
    · rename_i hfree
      have hgets : Gets w claim d := ⟨hmem, hfits, honly, ownedByAnother_iff.1 (by simpa using hfree)⟩
      refine (bound_ensures via hw hscope hclaim hserial hl hgets).mono ?_
      rintro _ w' ⟨rfl, claim', hclaim', hactive, hbound⟩
      refine ⟨rfl, claim', hclaim', ⟨fun _ => ⟨d, hgets⟩, fun _ => hactive⟩, fun x hx => ?_, fun h => absurd hgets (h d)⟩
      rw [honly x hx.mem hx.fits]
      exact hbound
  · rename_i a b rest hfilter
    simp only [hfilter]
    exact unbound_ensures via hclaim hcases _ _

end binding

section run

attribute [local instance] asciiLib

/-- A drive was moved to another slot: its old device is gone, and the new one spells the serial number differently. -/
def oldDevice : NVMeDevice where
  metadata := { ns := [], name := "d1" }
  spec := { nodeName := "n1", pciAddress := "0000:01:00.0", serialNumber := "s1", totalCapacity := 8388608 }
  status := { state := .unavailable, claimRef := some ⟨str "ns", str "claim", str "c1"⟩ }

def newDevice : NVMeDevice where
  metadata := { ns := [], name := "d2" }
  spec := { nodeName := "n2", pciAddress := "0000:02:00.0", serialNumber := "S1", totalCapacity := 8388608 }
  status := { state := .available }

def movedClaim : NVMeDeviceClaim where
  metadata := { ns := "ns", name := "claim", uid := "c1", finalizers := [claimFinalizer] }
  spec := { serialNumber := "s1" }
  status := { active := true, matchedDevice := "d1", nodeName := "n1" }

def movedCluster : Cluster where
  partitions := ⟨[], 1⟩
  devices := ⟨[oldDevice, newDevice], 1⟩
  claims := ⟨[movedClaim], 1⟩
  nodes := ⟨[], 1⟩

theorem moved_gets : Gets movedCluster movedClaim newDevice where
  mem := by decide
  fits := ⟨by decide, by decide⟩
  only := by
    intro x hx hfits
    rcases List.mem_pair.1 hx with rfl | rfl
    · exact absurd hfits.2 (by decide)
    · rfl
  free := .inr (.inl ⟨rfl, by decide⟩)

theorem binding_exact_moved : Ensures (alone ∅) (fun _ w' => BoundTo movedCluster movedClaim newDevice w' ∧
    ∃ claim', w'.claims.find movedClaim.key = some claim' ∧ claim'.status.active = true)
    (reconcile .cache movedClaim.key) movedCluster := by
  refine (binding_exact .cache ⟨by decide, by decide⟩ (by decide) rfl rfl (by decide) (by decide)).mono ?_
  rintro r w' ⟨-, claim', hclaim', hactive, hbound, -⟩
  exact ⟨hbound newDevice moved_gets, claim', hclaim', hactive.2 ⟨newDevice, moved_gets⟩⟩

end run

end Distort.Manager.Claim
