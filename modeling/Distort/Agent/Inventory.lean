import Distort.Agent.Reporter
import Distort.Lib.Server
import Distort.Lib.Store

/-!
A scan that went wrong declares no drive lost.

One pass of a reporter, while others do to the devices what they like.  A read shows anything that could have been
stored, every request may fail with or without its effect, and discovery may find anything.  All that is asked is that
devices are named after their node and serial number, and that no two of the names in question collide.

* `scan_harmless` — no request of the pass touches a device of another node, or changes the claim or the backend of a
  device; a device is set to `Unavailable` only if discovery, validation and naming of all drives went well and none of
  the drives has the serial number of the device.
-/

namespace Distort.Agent.Reporter

open Go Lib Lib.Kube Lib.Prog Api Proc

abbrev Devices : Type := Store NVMeDeviceSpec NVMeDeviceStatus

/-- What discovery answers. -/
abbrev Scan : Type := NodeCall.Resp .discoverNVMe

structure Inventory where
  devices : Devices
  /-- What the pass was told of the drives. -/
  scan : Option Scan
  /-- The devices before and after each request of the pass. -/
  writes : List (Devices × Devices)

def scanned : Scan → List HardwareNVMe
  | .ok drives => drives
  | .error partly => partly.1

variable {d : NVMeDevice}

section pass

variable [StdLib] {K : Set (Str × Str)} {nodeName : Str} {scan : Scan}

/-! ### Names -/

/-- The device has the name for its node and serial number, which are among the pairs in question. -/
structure NamedDevice (K : Set (Str × Str)) (d : NVMeDevice) : Prop where
  pair : (d.spec.nodeName, d.spec.serialNumber) ∈ K
  ns : d.metadata.ns = []
  name : deviceObjectName d.spec.nodeName d.spec.serialNumber = .ok d.metadata.name

structure Named (K : Set (Str × Str)) (s : Devices) : Prop where
  ok : s.Ok
  devices : ∀ d ∈ s.objects, NamedDevice K d

/-- No two pairs have the same name. -/
def CollisionFree (K : Set (Str × Str)) : Prop :=
  ∀ k ∈ K, ∀ k' ∈ K, ∀ name, deviceObjectName k.1 k.2 = .ok name → deviceObjectName k'.1 k'.2 = .ok name → k = k'

/-- The key of the device for a serial number on the node. -/
def KeyOf (K : Set (Str × Str)) (nodeName serialNumber : Str) (key : Key) : Prop :=
  (nodeName, serialNumber) ∈ K ∧ key.ns = [] ∧ deviceObjectName nodeName serialNumber = .ok key.name

theorem KeyOf.unique {serial : Str} {key : Key} (hfree : CollisionFree K) (h : KeyOf K nodeName serial key)
    (hd : NamedDevice K d) (hkey : d.key = key) : d.spec.nodeName = nodeName ∧ d.spec.serialNumber = serial := by
  have hname : deviceObjectName d.spec.nodeName d.spec.serialNumber = .ok key.name := by
    rw [← hkey]
    exact hd.name
  exact Prod.mk.inj (hfree _ hd.pair _ h.1 _ hname h.2.2)

theorem NamedDevice.keyOf (h : NamedDevice K d) : KeyOf K d.spec.nodeName d.spec.serialNumber d.key :=
  ⟨h.pair, h.ns, h.name⟩

/-! ### What a request may do -/

/-- Discovery, validation and naming went well, and the device was not found. -/
def Lost (nodeName : Str) (scan : Scan) (d : NVMeDevice) : Prop :=
  ∃ drives, scan = .ok drives ∧
    (∀ x ∈ drives, validateHardwareNVMe x = none ∧ (deviceObjectName nodeName x.serialNumber).toBool = true) ∧
    ∀ x ∈ drives, ¬ (d.spec.nodeName = nodeName ∧ d.spec.serialNumber = x.serialNumber)

/-- What a request of the pass does to the devices. -/
structure Harmless (nodeName : Str) (scan : Scan) (before after : Devices) : Prop where
  elsewhere : ∀ d ∈ before.objects, d.spec.nodeName ≠ nodeName → d ∈ after.objects
  here : ∀ d ∈ after.objects, d ∈ before.objects ∨ d.spec.nodeName = nodeName
  kept : ∀ d ∈ before.objects, ∃ d' ∈ after.objects, d'.key = d.key ∧
    d'.status.claimRef = d.status.claimRef ∧ d'.status.activeBackend = d.status.activeBackend ∧
    (d'.status.state = .unavailable → d.status.state = .unavailable ∨ Lost nodeName scan d)

theorem Harmless.refl (s : Devices) : Harmless nodeName scan s s :=
  ⟨fun _ hd _ => hd, fun _ hd => .inl hd, fun d hd => ⟨d, hd, rfl, rfl, rfl, .inl⟩⟩

theorem harmless_put {s : Devices} {key : Key} {d' : NVMeDevice} (hs : s.Ok) (hfind : s.find key = some d)
    (hnode : d.spec.nodeName = nodeName) (hkey : d'.key = key) (hnode' : d'.spec.nodeName = nodeName)
    (hclaim : d'.status.claimRef = d.status.claimRef) (hbackend : d'.status.activeBackend = d.status.activeBackend)
    (hstate : d'.status.state = .unavailable → d.status.state = .unavailable ∨ Lost nodeName scan d) :
    Harmless nodeName scan s (s.put key (some d')) := by
  obtain ⟨hmem, hdkey⟩ := Store.mem_of_find hfind
  refine ⟨fun x hx hne => ?_, fun x hx => ?_, fun x hx => ?_⟩
  · refine Store.mem_put.2 (.inl ⟨hx, fun hk => hne ?_⟩)
    rw [hs.eq_of_key hx hmem (hk.trans hdkey.symm)]
    exact hnode
  · rcases Store.mem_put.1 hx with ⟨hold, -⟩ | ⟨hnew, -⟩
    · exact .inl hold
    · obtain rfl := Option.some.inj hnew
      exact .inr hnode'
  · by_cases hk : x.key = key
    · obtain rfl := hs.eq_of_key hx hmem (hk.trans hdkey.symm)
      exact ⟨d', Store.mem_put.2 (.inr ⟨rfl, x, hx, hk⟩), hkey.trans hk.symm, hclaim, hbackend, hstate⟩
    · exact ⟨x, Store.mem_put.2 (.inl ⟨hx, hk⟩), rfl, rfl, rfl, .inl⟩

theorem named_put {s : Devices} {key : Key} {d' : NVMeDevice} (hs : Named K s) (hkey : d'.key = key)
    (hversion : d'.metadata.resourceVersion = s.version + 1) (hd' : NamedDevice K d') : Named K (s.put key (some d')) := by
  refine ⟨hs.ok.put ?_, fun x hx => ?_⟩
  · rintro _ ⟨⟩
    exact ⟨hkey, hversion⟩
  · rcases Store.mem_put.1 hx with ⟨hold, -⟩ | ⟨hnew, -⟩
    · exact hs.devices x hold
    · obtain rfl := Option.some.inj hnew
      exact hd'

/-! ### Requests -/

/-- The pass has made a request. -/
def Inventory.wrote (w : Inventory) (before after : Devices) : Inventory :=
  { w with devices := after, writes := (before, after) :: w.writes }

/-- A write finds what others have made of the devices; it may fail, with or without its effect. -/
def Writes (K : Set (Str × Str)) {α : Type} (request : Devices → Except Err α × Devices) (w : Inventory)
    (r : Except Err α) (w' : Inventory) : Prop :=
  ∃ before after fate, (Named K w.devices → Named K before) ∧
    Fate.answerWith (fun _ => true) fate before (request before) = some (r, after) ∧ w' = w.wrote before after

def server (K : Set (Str × Str)) (nodeName : Str) : Server Call Call.Resp Inventory
  | .node .discoverNVMe, w, r, w' =>
    (∀ d ∈ scanned r, (nodeName, d.serialNumber) ∈ K) ∧ w' = { w with scan := some r }
  | .api (.get .device _ key), w, r, w' => (∀ d, r = .ok d → d.key = key ∧ NamedDevice K d) ∧ w' = w
  | .api (.list .device _), w, r, w' => (∀ l, r = .ok l → ∀ d ∈ l, NamedDevice K d) ∧ w' = w
  | .api (.create .device obj), w, r, w' => ∃ uid, Writes K (Store.create uid ({} : NVMeDeviceStatus) obj) w r w'
  | .api (.patch .device base obj), w, r, w' => Writes K (Store.patchSpec NVMeDeviceSpec.merge base obj) w r w'
  | .api (.patchStatus .device base obj), w, r, w' => Writes K (Store.patchStatus NVMeDeviceStatus.merge base obj) w r w'
  | _, _, _, _ => False

/-- At every moment after the scan. -/
structure Inv (K : Set (Str × Str)) (nodeName : Str) (scan : Scan) (w : Inventory) : Prop where
  told : w.scan = some scan
  named : Named K w.devices
  writes : ∀ e ∈ w.writes, Harmless nodeName scan e.1 e.2

/-- A request is good for the devices that it finds. -/
def Good (K : Set (Str × Str)) (nodeName : Str) (scan : Scan) {α : Type} (request : Devices → Except Err α × Devices) : Prop :=
  ∀ s, Named K s → Named K (request s).2 ∧ Harmless nodeName scan s (request s).2

theorem Writes.inv {α : Type} {request : Devices → Except Err α × Devices} {w w' : Inventory} {r : Except Err α}
    (h : Writes K request w r w') (hinv : Inv K nodeName scan w) (hgood : Good K nodeName scan request) :
    Inv K nodeName scan w' ∧ ∀ a, r = .ok a → ∃ s, Named K s ∧ (request s).1 = .ok a := by
  obtain ⟨before, after, fate, hothers, hfate, rfl⟩ := h
  have hbefore := hothers hinv.named
  obtain ⟨hnamed, hharmless⟩ := hgood before hbefore
  have hafter : Named K after ∧ Harmless nodeName scan before after := by
    rcases Fate.answerWith_state hfate with rfl | rfl
    · exact ⟨hbefore, .refl _⟩
    · exact ⟨hnamed, hharmless⟩
  refine ⟨⟨hinv.told, hafter.1, fun e he => ?_⟩, ?_⟩
  · rcases List.mem_cons.1 he with rfl | hold
    · exact hafter.2
    · exact hinv.writes e hold
  · rintro a rfl
    exact ⟨before, hbefore, congrArg Prod.fst (Fate.answerWith_ok hfate)⟩

variable {x : HardwareNVMe}

theorem create_good (uid : Str) {name : Str} (hkey : KeyOf K nodeName x.serialNumber ⟨[], name⟩) :
    Good K nodeName scan (Store.create uid ({} : NVMeDeviceStatus)
      { metadata := { ns := [], name }, spec := described nodeName x, status := {} }) := by
  intro s hs
  unfold Store.create
  split
  · exact ⟨hs, .refl s⟩
  rename_i hnone
  refine ⟨⟨hs.ok.add hnone rfl, fun d hd => ?_⟩, fun d hd _ => List.mem_append_left _ hd, fun d hd => ?_, fun d hd => ?_⟩
  · rcases List.mem_append.1 hd with hold | hnew
    · exact hs.devices d hold
    · obtain rfl := List.mem_singleton.1 hnew
      exact ⟨hkey.1, rfl, hkey.2.2⟩
  · rcases List.mem_append.1 hd with hold | hnew
    · exact .inl hold
    · obtain rfl := List.mem_singleton.1 hnew
      exact .inr rfl
  · exact ⟨d, List.mem_append_left _ hd, rfl, rfl, rfl, .inl⟩

/-- The spec of a device is refreshed; the node and the serial number stay the same. -/
theorem patchSpec_good (hfree : CollisionFree K) {base : NVMeDevice} (hbase : NamedDevice K base)
    (hkey : KeyOf K nodeName x.serialNumber base.key) :
    Good K nodeName scan (Store.patchSpec NVMeDeviceSpec.merge base { base with spec := described nodeName x }) := by
  intro s hs
  obtain ⟨hbnode, hbserial⟩ := hkey.unique hfree hbase rfl
  rcases Store.patchSpec_cases (s := s) NVMeDeviceSpec.merge base { base with spec := described nodeName x } with
    ⟨-, heq⟩ | ⟨stored, hfind, heq⟩
  · rw [heq]
    exact ⟨hs, .refl s⟩
  · rw [heq]
    obtain ⟨hmem, hskey⟩ := Store.mem_of_find hfind
    have hstored := hs.devices stored hmem
    obtain ⟨hnode, hserial⟩ := hkey.unique hfree hstored hskey
    have hnode' : mergeField base.spec.nodeName nodeName stored.spec.nodeName = stored.spec.nodeName := by
      rw [hbnode, mergeField_self]
    have hserial' : mergeField base.spec.serialNumber x.serialNumber stored.spec.serialNumber = stored.spec.serialNumber := by
      rw [hbserial, mergeField_self]
    refine ⟨named_put hs hskey rfl ⟨?_, hstored.ns, ?_⟩, harmless_put hs.ok hfind hnode hskey ?_ rfl rfl .inl⟩
    · change (mergeField base.spec.nodeName nodeName stored.spec.nodeName,
        mergeField base.spec.serialNumber x.serialNumber stored.spec.serialNumber) ∈ K
      rw [hnode', hserial']
      exact hstored.pair
    · change deviceObjectName (mergeField base.spec.nodeName nodeName stored.spec.nodeName)
        (mergeField base.spec.serialNumber x.serialNumber stored.spec.serialNumber) = _
      rw [hnode', hserial']
      exact hstored.name
    · change mergeField base.spec.nodeName nodeName stored.spec.nodeName = nodeName
      rw [hnode', hnode]

theorem patchStatus_good (hfree : CollisionFree K) {base : NVMeDevice} {serial : Str} {status : NVMeDeviceStatus}
    (hkey : KeyOf K nodeName serial base.key) (hclaim : status.claimRef = base.status.claimRef)
    (hbackend : status.activeBackend = base.status.activeBackend)
    (hstate : status.state = .unavailable → ∀ d : NVMeDevice, d.spec.serialNumber = serial → Lost nodeName scan d) :
    Good K nodeName scan (Store.patchStatus NVMeDeviceStatus.merge base { base with status }) := by
  intro s hs
  rcases Store.patchStatus_cases (s := s) NVMeDeviceStatus.merge base { base with status } with
    ⟨-, heq⟩ | ⟨stored, hfind, heq⟩
  · rw [heq]
    exact ⟨hs, .refl s⟩
  · rw [heq]
    obtain ⟨hmem, hskey⟩ := Store.mem_of_find hfind
    have hstored := hs.devices stored hmem
    obtain ⟨hnode, hserial⟩ := hkey.unique hfree hstored hskey
    refine ⟨named_put hs hskey rfl ⟨hstored.pair, hstored.ns, hstored.name⟩,
      harmless_put hs.ok hfind hnode hskey hnode ?_ ?_ fun hmerged => ?_⟩
    · change mergeField base.status.claimRef status.claimRef stored.status.claimRef = _
      rw [hclaim, mergeField_self]
    · change mergeField base.status.activeBackend status.activeBackend stored.status.activeBackend = _
      rw [hbackend, mergeField_self]
    · -- the state is in the patch, or it stays what it was
      change mergeField base.status.state status.state stored.status.state = _ at hmerged
      unfold mergeField at hmerged
      split at hmerged
      · exact .inl hmerged
      · exact .inr (hstate hmerged stored hserial)

/-! ### The pass -/

variable {w : Inventory}

omit [StdLib] in
theorem count_err (t : Tally) (d : NVMeDevice) (total free : ℤ) : (t.count d total free).err = t.err := by
  unfold Tally.count
  split
  · rfl
  · rfl

omit [StdLib] in
theorem count_seen (t : Tally) (d : NVMeDevice) (total free : ℤ) : (t.count d total free).seen = t.seen := by
  unfold Tally.count
  split
  · rfl
  · rfl

theorem createDevice_holds (hfree : CollisionFree K) (via : Reader) {name : Str} (t : Tally)
    (hkey : KeyOf K nodeName x.serialNumber ⟨[], name⟩) (hinv : Inv K nodeName scan w) :
    Holds (server K nodeName) (Inv K nodeName scan) (fun t' _ => t'.err = t.err ∧ t'.seen = t.seen)
      (createDevice via nodeName name x t) w := by
  refine .check (.op hinv fun r w1 h => ?_)
  obtain ⟨uid, hwrites⟩ := h
  obtain ⟨hinv1, -⟩ := hwrites.inv hinv (create_good uid hkey)
  refine ⟨hinv1, ?_⟩
  rcases r with err | created
  · exact .ret hinv1 ⟨rfl, rfl⟩
  refine .check (.op hinv1 ?_)
  rintro r w1 ⟨hshown, rfl⟩
  refine ⟨hinv1, ?_⟩
  rcases r with err | latest
  · exact .ret hinv1 ⟨count_err t created _ _, count_seen t created _ _⟩
  obtain ⟨hlatest, -⟩ := hshown latest rfl
  refine .bind (.op hinv1 fun r w2 hwrites => ?_)
  have hgood : Good K nodeName scan (Store.patchStatus NVMeDeviceStatus.merge latest (initialized latest)) :=
    patchStatus_good hfree (hlatest.symm ▸ hkey) rfl rfl nofun
  obtain ⟨hinv2, -⟩ := Writes.inv hwrites hinv1 hgood
  exact ⟨hinv2, .ret hinv2 ⟨count_err t created _ _, count_seen t created _ _⟩⟩

omit [StdLib] in
theorem returned_state : (returned d).status.state ≠ .unavailable := by
  change (if d.status.state = .unavailable then if d.status.claimRef = none then .available else .claimed
    else d.status.state) ≠ NVMeDeviceState.unavailable
  split
  · split
    · exact nofun
    · exact nofun
  · rename_i h
    exact h

theorem refreshDevice_holds (hfree : CollisionFree K) {device : NVMeDevice} (t : Tally)
    (hdevice : NamedDevice K device) (hkey : KeyOf K nodeName x.serialNumber device.key) (hinv : Inv K nodeName scan w) :
    Holds (server K nodeName) (Inv K nodeName scan) (fun t' _ => t'.err = t.err ∧ t'.seen = t.seen)
      (refreshDevice nodeName x device t) w := by
  refine .check (.op hinv fun r w1 hwrites => ?_)
  obtain ⟨hinv1, hanswer⟩ := Writes.inv hwrites hinv (patchSpec_good hfree hdevice hkey)
  refine ⟨hinv1, ?_⟩
  rcases r with err | current
  · exact .ret hinv1 ⟨rfl, rfl⟩
  -- the answer is the device that the patch was made for
  have hcurrent : current.key = device.key := by
    obtain ⟨s, -, hpatched⟩ := hanswer current rfl
    rcases Store.patchSpec_cases (s := s) NVMeDeviceSpec.merge device { device with spec := described nodeName x } with
      ⟨-, heq⟩ | ⟨stored, hfind, heq⟩
    · rw [heq] at hpatched
      cases hpatched
    · rw [heq] at hpatched
      obtain rfl := Except.ok.inj hpatched
      exact (Store.mem_of_find hfind).2
  refine .check (.op hinv1 fun r w2 hwrites => ?_)
  have hgood : Good K nodeName scan (Store.patchStatus NVMeDeviceStatus.merge current (returned current)) :=
    patchStatus_good hfree (hcurrent.symm ▸ hkey) rfl rfl fun h => absurd h returned_state
  obtain ⟨hinv2, -⟩ := Writes.inv hwrites hinv1 hgood
  refine ⟨hinv2, ?_⟩
  cases r with
  | error err => exact .ret hinv2 ⟨rfl, rfl⟩
  | ok latest => exact .ret hinv2 ⟨count_err t latest _ _, count_seen t latest _ _⟩

/-- The drive went well, and its name is noted. -/
def Noted (nodeName : Str) (x : HardwareNVMe) (t : Tally) : Prop :=
  validateHardwareNVMe x = none ∧ ∃ name, deviceObjectName nodeName x.serialNumber = .ok name ∧ name ∈ t.seen

theorem reportDevice_holds (hfree : CollisionFree K) (via : Reader) (t : Tally)
    (hx : (nodeName, x.serialNumber) ∈ K) (hinv : Inv K nodeName scan w) :
    Holds (server K nodeName) (Inv K nodeName scan)
      (fun t' _ => t.seen ⊆ t'.seen ∧ (t'.err = none → t.err = none ∧ Noted nodeName x t'))
      (reportDevice via nodeName x t) w := by
  unfold reportDevice
  split
  · exact .ret hinv ⟨fun _ h => h, nofun⟩
  rename_i hvalid
  split
  · exact .ret hinv ⟨fun _ h => h, nofun⟩
  rename_i name hname
  have hkey : KeyOf K nodeName x.serialNumber ⟨[], name⟩ := ⟨hx, rfl, hname⟩
  -- whatever becomes of the requests, the name is noted
  have hend : ∀ {t' : Tally}, t'.err = t.err ∧ t'.seen = name :: t.seen →
      t.seen ⊆ t'.seen ∧ (t'.err = none → t.err = none ∧ Noted nodeName x t') := by
    rintro t' ⟨herr, hseen⟩
    rw [hseen, herr]
    exact ⟨List.subset_cons_self name t.seen, fun h => ⟨h, hvalid, name, hname, by rw [hseen]; exact List.mem_cons_self⟩⟩
  refine .check (.op hinv ?_)
  rintro r w ⟨hshown, rfl⟩
  refine ⟨hinv, ?_⟩
  rcases r with err | device
  · dsimp only
    split
    · exact (createDevice_holds hfree via _ hkey hinv).mono fun t' _ _ h => hend h
    · exact .ret hinv (hend ⟨rfl, rfl⟩)
  obtain ⟨hdkey, hdevice⟩ := hshown device rfl
  exact (refreshDevice_holds hfree _ hdevice (hdkey.symm ▸ hkey) hinv).mono fun t' _ _ h => hend h

theorem reportFound_holds (hfree : CollisionFree K) (via : Reader) {drives : List HardwareNVMe} (t : Tally)
    (hdrives : ∀ x ∈ drives, (nodeName, x.serialNumber) ∈ K) (hinv : Inv K nodeName scan w) :
    Holds (server K nodeName) (Inv K nodeName scan)
      (fun t' _ => t.seen ⊆ t'.seen ∧ (t'.err = none → t.err = none ∧ ∀ x ∈ drives, Noted nodeName x t'))
      (reportFound via nodeName drives t) w := by
  induction drives generalizing t w with
  | nil => exact .ret hinv ⟨fun _ h => h, fun h => ⟨h, nofun⟩⟩
  | cons x drives ih =>
    refine .bind ((reportDevice_holds hfree via t (hdrives x List.mem_cons_self) hinv).mono ?_)
    rintro t1 w1 hinv1 ⟨hsub, hgood⟩
    refine (ih t1 (fun y hy => hdrives y (List.mem_cons_of_mem x hy)) hinv1).mono ?_
    rintro t2 w2 - ⟨hsub', hgood'⟩
    refine ⟨fun _ h => hsub' (hsub h), fun herr => ?_⟩
    obtain ⟨herr1, hrest⟩ := hgood' herr
    obtain ⟨herr0, hvalid, name, hname, hseen⟩ := hgood herr1
    refine ⟨herr0, fun y hy => ?_⟩
    rcases List.mem_cons.1 hy with rfl | hy
    · exact ⟨hvalid, name, hname, hsub' hseen⟩
    · exact hrest y hy

/-- What is set to `Unavailable` was not seen. -/
theorem reportMissing_holds (hfree : CollisionFree K) {seen : List Str} {drives : List HardwareNVMe} {t : Tally}
    (hseen : t.seen = seen) (hdrives : ∀ x ∈ drives, Noted nodeName x t) (hscan : scan = .ok drives)
    {devices : List NVMeDevice} (hdevices : ∀ d ∈ devices, NamedDevice K d) (hinv : Inv K nodeName scan w) :
    Holds (server K nodeName) (Inv K nodeName scan) (fun _ _ => True) (reportMissing nodeName seen devices) w := by
  induction devices generalizing w with
  | nil => exact .ret hinv trivial
  | cons device devices ih =>
    have hrest : ∀ {w}, Inv K nodeName scan w →
        Holds (server K nodeName) (Inv K nodeName scan) (fun _ _ => True) (reportMissing nodeName seen devices) w :=
      fun hinv => ih (fun d hd => hdevices d (List.mem_cons_of_mem device hd)) hinv
    unfold reportMissing
    split
    · exact hrest hinv
    rename_i hmissing
    simp only [Bool.or_eq_true, decide_eq_true_eq, List.contains_iff_mem, not_or, not_not] at hmissing
    obtain ⟨hnode, hunseen⟩ := hmissing
    have hdevice := hdevices device List.mem_cons_self
    have hkey : KeyOf K nodeName device.spec.serialNumber device.key := hnode ▸ hdevice.keyOf
    refine .bind (.op hinv fun r w1 hwrites => ?_)
    have hgood : Good K nodeName scan (Store.patchStatus NVMeDeviceStatus.merge device (missing device)) := by
      refine patchStatus_good hfree hkey rfl rfl fun _ d hserial => ⟨drives, hscan, fun x hx => ?_, ?_⟩
      · obtain ⟨hvalid, name, hname, -⟩ := hdrives x hx
        exact ⟨hvalid, by rw [hname]; rfl⟩
      · -- a drive with the serial number has the name of the device
        rintro x hx ⟨-, hsame⟩
        obtain ⟨-, name, hname, hin⟩ := hdrives x hx
        rw [← hsame, hserial, hkey.2.2] at hname
        obtain rfl := Except.ok.inj hname
        exact hunseen (hseen ▸ hin)
    obtain ⟨hinv1, -⟩ := Writes.inv hwrites hinv hgood
    exact ⟨hinv1, hrest hinv1⟩

theorem report_holds (hfree : CollisionFree K) (via : Reader) (hscan : ∀ x ∈ scanned scan, (nodeName, x.serialNumber) ∈ K)
    (hinv : Inv K nodeName scan w) : Holds (server K nodeName) (Inv K nodeName scan) (fun _ _ => True)
      (let discovered := match scan with
        | .ok devices => (devices, none)
        | .error partly => (partly.1, some partly.2)
      reportFound via nodeName discovered.1 { err := discovered.2 } >>= fun t =>
      (list .device via).check (fun err => .ret (t.total, t.free, some (.join t.err err))) fun reported =>
      if t.err.isSome then .ret (t.total, t.free, t.err)
      else reportMissing nodeName t.seen reported >>= fun _ => .ret (t.total, t.free, none)) w := by
  have hlist : ∀ {t : Tally} {w : Inventory}, Inv K nodeName scan w →
      (t.err = none → ∃ drives, scan = .ok drives ∧ ∀ x ∈ drives, Noted nodeName x t) →
      Holds (server K nodeName) (Inv K nodeName scan) (fun _ _ => True)
        ((list .device via).check (fun err => .ret (t.total, t.free, some (.join t.err err))) fun reported =>
          if t.err.isSome then .ret (t.total, t.free, t.err)
          else reportMissing nodeName t.seen reported >>= fun _ => .ret (t.total, t.free, none)) w := by
    intro t w hinv hnoted
    refine .check (.op hinv ?_)
    rintro r w ⟨hshown, rfl⟩
    refine ⟨hinv, ?_⟩
    rcases r with err | reported
    · exact .ret hinv trivial
    dsimp only
    split
    · exact .ret hinv trivial
    rename_i herr
    obtain ⟨drives, hscan', hdrives⟩ := hnoted (by simpa using herr)
    refine .bind ((reportMissing_holds hfree rfl hdrives hscan' (hshown reported rfl) hinv).mono ?_)
    exact fun _ _ hinv' _ => .ret hinv' trivial
  cases scan with
  | ok drives =>
    refine .bind ((reportFound_holds hfree via _ hscan hinv).mono ?_)
    rintro t w' hinv' ⟨-, hnoted⟩
    exact hlist hinv' fun herr => ⟨drives, rfl, (hnoted herr).2⟩
  | error partly =>
    refine .bind ((reportFound_holds hfree via _ hscan hinv).mono ?_)
    rintro t w' hinv' ⟨-, hnoted⟩
    exact hlist hinv' fun herr => nomatch (hnoted herr).1

/-- **A scan declares no drive lost that it may have missed.**  Whatever discovery finds, whatever fails and whatever
others do meanwhile: no request of the pass touches a device of another node or changes the claim or the backend of a
device, and a device is set to `Unavailable` only after a scan without any error that did not contain it. -/
theorem scan_harmless (hfree : CollisionFree K) (via : Reader) {w w' : Inventory} (hnamed : Named K w.devices)
    (hstart : w.writes = []) {q : Proc (ℤ × ℤ × Option Err)}
    (h : Reaches (server K nodeName) (reportDevices via nodeName) w q w') :
    ∀ e ∈ w'.writes, ∃ scan, w'.scan = some scan ∧ Harmless nodeName scan e.1 e.2 := by
  cases h with
  | refl =>
    rw [hstart]
    exact nofun
  | @step _ _ scan _ _ _ _ hc hrest =>
    obtain ⟨hscan, rfl⟩ := hc
    have hinv : Inv K nodeName scan { w with scan := some scan } :=
      ⟨rfl, hnamed, by rw [hstart]; exact nofun⟩
    have hinv' := (hrest.holds (report_holds hfree via hscan hinv)).inv
    exact fun e he => ⟨scan, hinv'.told, hinv'.writes e he⟩

end pass

section run

attribute [local instance] asciiLib

/-- A device whose drive was pulled. -/
def pulled (name : Str) : NVMeDevice where
  metadata := { ns := [], name }
  spec := { nodeName := "n1", pciAddress := "0000:01:00.0", serialNumber := "s1", totalCapacity := 8388608 }
  status := { state := .claimed, claimRef := some ⟨str "ns", str "claim", str "c1"⟩, activeBackend := "spdk" }

/-- What is stored when the device is declared lost. -/
def gone (name : Str) : NVMeDevice := Store.stamp ⟨[pulled name], 1⟩ (missing (pulled name))

/-- A scan without an error that finds no drive sets the device to `Unavailable`, and leaves its claim alone. -/
theorem scan_harmless_pulled : ∃ name, deviceObjectName "n1" "s1" = .ok name ∧
    (gone name).status.state = .unavailable ∧ (gone name).status.claimRef = (pulled name).status.claimRef ∧
      ∃ scan, Harmless "n1" scan ⟨[pulled name], 1⟩ ⟨[gone name], 2⟩ := by
  obtain ⟨name, hname⟩ : ∃ name, deviceObjectName "n1" "s1" = .ok name := by
    have hok : (deviceObjectName "n1" "s1").toBool = true := by decide +kernel
    cases h : deviceObjectName "n1" "s1" with
    | error err =>
      rw [h] at hok
      cases hok
    | ok name => exact ⟨name, rfl⟩
  have hpulled : NamedDevice {(str "n1", str "s1")} (pulled name) := ⟨rfl, rfl, hname⟩
  have hfree : CollisionFree {(str "n1", str "s1")} := by
    rintro k rfl k' rfl name - -
    rfl
  have hnamed : Named {(str "n1", str "s1")} ⟨[pulled name], 1⟩ := by
    refine ⟨⟨by simp, by simp [pulled]⟩, fun d hd => ?_⟩
    obtain rfl := List.mem_singleton.1 hd
    exact hpulled
  have hpatch : Store.patchStatus NVMeDeviceStatus.merge (pulled name) (missing (pulled name)) ⟨[pulled name], 1⟩ =
      (.ok (gone name), ⟨[gone name], 2⟩) := by
    have hfind : Store.find ⟨[pulled name], 1⟩ (pulled name).key = some (pulled name) := by simp [Store.find]
    have hput : Store.put ⟨[pulled name], 1⟩ (pulled name).key (some (gone name)) = ⟨[gone name], 2⟩ := by
      simp [Store.put]
    rw [← hput]
    exact Store.patchStatus_stored NVMeDeviceStatus.merge_base hfind (missing (pulled name)).status
  have hrun : Reaches (server {(str "n1", str "s1")} "n1") (reportDevices .cache "n1") ⟨⟨[pulled name], 1⟩, none, []⟩
      (.ret (0, 0, none)) ⟨⟨[gone name], 2⟩, some (.ok []), [(⟨[pulled name], 1⟩, ⟨[gone name], 2⟩)]⟩ := by
    refine .step (r := .ok []) ⟨by simp [scanned], rfl⟩ (.step (r := .ok [pulled name]) ⟨?_, rfl⟩
      (.step (r := .ok (gone name)) ⟨_, _, .ok, id, congrArg some hpatch, rfl⟩ (.refl _ _)))
    rintro _ ⟨⟩ d hd
    obtain rfl := List.mem_singleton.1 hd
    exact hpulled
  obtain ⟨scan, -, hharmless⟩ := scan_harmless hfree .cache hnamed rfl hrun _ List.mem_cons_self
  exact ⟨name, hname, rfl, rfl, scan, hharmless⟩

end run

end Distort.Agent.Reporter
