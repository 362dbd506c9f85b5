import Mathlib.Logic.Function.Basic
import Distort.Lib.Machine
import Distort.Lib.Owner
import Distort.Lib.Slot
import Distort.Manager.Claim
import Distort.Manager.Placement

/-!
Devices change their owner only in a reconciliation of that owner.

One worker reconciles claims, one after the other.  It reads devices from a cache that lags but never goes
backwards; what it is shown of claims is left open altogether.  Status writes are merge patches without a
version; the server refuses to replace one claim reference by another.  Everybody else may write anything
about a device but its reference.  Each request may fail, with or without having taken effect, and the worker
may stop anywhere.

* `owner_changes_hands` — a step that changes the stored reference of a device sets it from nobody to the claim
  being reconciled, or from that claim to nobody.
-/

namespace Distort.Manager.Ownership

open Go Lib Lib.Kube Api Proc Claim

/-! ### The state -/

/-- Devices with their versions, and the claim that the worker was shown last. -/
structure World where
  devices : Key → Slot NVMeDeviceSpec NVMeDeviceStatus
  claim : Option ClaimRef

/-- The names of the devices that there may be. -/
structure Setting where
  keys : List Key

/-- What others do. -/
inductive Change where
  /-- A device is created without an owner, or written without touching its owner. -/
  | put (device : NVMeDevice)
  /-- The cache has caught up, as after a restart. -/
  | sync

structure Choice where
  fate : Fate := .ok
  /-- How many versions of a device a read skips. -/
  skip : Key → ℕ := fun _ => 0
  /-- What is shown of a claim, or stored by an update of it. -/
  claim : Option NVMeDeviceClaim := none
  /-- The answer to a call that the state says nothing about. -/
  reply : (c : Call) → Option c.Resp := fun _ => none
  change : Change := .sync

/-- The owner in a version of a device. -/
def owner (v : Option NVMeDevice) : Option ClaimRef := v.bind fun d => d.status.claimRef

namespace World

/-- The stored owner of a device. -/
def owner (w : World) (key : Key) : Option ClaimRef := Ownership.owner (w.devices key).cur

def setDevice (w : World) (key : Key) (slot : Slot NVMeDeviceSpec NVMeDeviceStatus) : World :=
  { w with devices := Function.update w.devices key slot }

def getDevice (skip : Key → ℕ) (key : Key) (w : World) : Except Err NVMeDevice × World :=
  (((w.devices key).readCached (skip key)).1, w.setDevice key ((w.devices key).readCached (skip key)).2)

def listDevices (s : Setting) (skip : Key → ℕ) (w : World) : Except Err (List NVMeDevice) × World :=
  (.ok (s.keys.filterMap fun key => ((w.devices key).view (skip key)).1),
    { w with devices := fun key => ((w.devices key).view (skip key)).2 })

/-- The rule on the reference: it is immutable as long as it is there. -/
def refAllowed : Option ClaimRef → Option ClaimRef → Bool
  | some old, some new => old = new
  | _, _ => true

/-- What a status patch makes of the stored device. -/
def patched (base obj stored : NVMeDevice) : NVMeDevice :=
  { stored with status := .merge base.status obj.status stored.status }

def patchDevice (base obj : NVMeDevice) (w : World) : Except Err NVMeDevice × World :=
  match (w.devices obj.key).cur with
  | none => (.error notFound, w)
  | some stored =>
    if refAllowed stored.status.claimRef (patched base obj stored).status.claimRef then
      (.ok (patched base obj stored), w.setDevice obj.key ((w.devices obj.key).write (some (patched base obj stored))))
    else (.error invalid, w)

def change (ch : Change) (w : World) : Option World :=
  match ch with
  | .put device =>
    if device.status.claimRef = w.owner device.key then
      some (w.setDevice device.key ((w.devices device.key).write (some device)))
    else none
  | .sync => some { w with devices := fun key => (w.devices key).latest }

end World

/-! ### The system -/

def answer (s : Setting) (ch : Choice) : (c : Call) → World → Option (c.Resp × World)
  | .api (.get .claim _ key), w =>
    match ch.claim with
    | none => ch.fate.answer w (.error notFound, w)
    | some claim =>
      if claim.key = key then ch.fate.answer w (.ok claim, { w with claim := some (reference claim) }) else none
  | .api (.update .claim obj), w =>
    match ch.claim with
    | none => ch.fate.answer w (.error conflict, w)
    | some claim => if reference claim = reference obj then ch.fate.answer w (.ok claim, w) else none
  | .api (.get .device _ key), w => ch.fate.answer w (w.getDevice ch.skip key)
  | .api (.list .device _), w => ch.fate.answer w (w.listDevices s ch.skip)
  | .api (.patchStatus .device base obj), w => ch.fate.answer w (w.patchDevice base obj)
  | .api (.create .device _), _ | .api (.update .device _), _ | .api (.patch .device _ _), _
  | .api (.delete .device _), _ => none
  | c, w => (ch.reply c).map fun r => (r, w)

/-- **The system of one worker.** -/
def machine [StdLib] (s : Setting) : Machine Call Call.Resp World Key Choice (Except Err Result) where
  body := Claim.reconcile .cache
  answer ch _ := answer s ch
  change ch w := w.change ch.change
  init w := ∀ key, w.devices key = ⟨[], none⟩
  together _ _ := false

/-! ### Invariant -/

structure Inv (w : World) : Prop where
  named : ∀ key d, some d ∈ (w.devices key).versions → d.key = key
  tame : ∀ key, (w.devices key).Tame owner

/-- What the worker counts on while others act. -/
structure Rely (w w' : World) : Prop where
  stands : ∀ key o, (w.devices key).Stands owner o → (w'.devices key).Stands owner o
  claim : w'.claim = w.claim

theorem Rely.refl (w : World) : Rely w w := ⟨fun _ _ => id, rfl⟩

theorem Rely.trans {w1 w2 w3 : World} (h : Rely w1 w2) (h' : Rely w2 w3) : Rely w1 w3 :=
  ⟨fun key o hs => h'.stands key o (h.stands key o hs), h'.claim.trans h.claim⟩

/-- The references before and after a patch: they are the same, or the claim takes or gives up the device. -/
def Rightful (c : ClaimRef) (base new : Option ClaimRef) : Prop :=
  base = new ∨ base = none ∧ new = some c ∨ base = some c ∧ new = none

/-- What has to hold when the worker makes a call. -/
def Req (req : Key) (c : Call) (w : World) : Prop :=
  match c with
  | .api (.patchStatus .device base obj) =>
    ∃ c, w.claim = some c ∧ c.key = req ∧ Rightful c base.status.claimRef obj.status.claimRef ∧
      (w.devices obj.key).Stands owner base.status.claimRef
  | _ => True

variable {s : Setting} {w w' : World} {key : Key}

theorem devices_setDevice (w : World) (key key' : Key) (slot : Slot NVMeDeviceSpec NVMeDeviceStatus) :
    (w.setDevice key slot).devices key' = if key' = key then slot else w.devices key' := by
  simp [World.setDevice, Function.update_apply]

theorem Inv.write (h : Inv w) {d : NVMeDevice} (hk : d.key = key)
    (ht : ((w.devices key).write (some d)).Tame owner) : Inv (w.setDevice key ((w.devices key).write (some d))) := by
  refine ⟨fun key' d' hd' => ?_, fun key' => ?_⟩
  · rw [devices_setDevice] at hd'
    split at hd'
    · rename_i heq
      rw [Feed.versions_write] at hd'
      rcases List.mem_append.1 hd' with hold | hnew
      · exact heq ▸ h.named key d' hold
      · cases List.mem_singleton.1 hnew
        exact hk.trans heq.symm
    · exact h.named key' d' hd'
  · rw [devices_setDevice]
    split
    · exact ht
    · exact h.tame key'

theorem Inv.write_same (h : Inv w) {d : NVMeDevice} (hk : d.key = key) (hd : d.status.claimRef = w.owner key) :
    Inv (w.setDevice key ((w.devices key).write (some d))) ∧ Rely w (w.setDevice key ((w.devices key).write (some d))) := by
  refine ⟨h.write hk ((h.tame key).write_same hd), fun key' o hs => ?_, rfl⟩
  rw [devices_setDevice]
  split
  · rename_i heq
    exact (heq ▸ hs).write_same hd
  · exact hs

theorem Inv.shows (h : Inv w) {devices : Key → Slot NVMeDeviceSpec NVMeDeviceStatus}
    (hs : ∀ key, devices key = w.devices key ∨ ∃ v, (w.devices key).Shows v (devices key)) :
    Inv { w with devices } ∧ Rely w { w with devices } := by
  refine ⟨⟨fun key d hd => ?_, fun key => ?_⟩, fun key o hst => ?_, rfl⟩
  · rcases hs key with heq | ⟨v, hv⟩
    · exact h.named key d (heq ▸ hd)
    · exact h.named key d (hv.suffix.subset hd)
  · rcases hs key with heq | ⟨v, hv⟩
    · simpa only [heq] using h.tame key
    · exact (h.tame key).shows hv
  · rcases hs key with heq | ⟨v, hv⟩
    · simpa only [heq] using hst
    · exact hst.shows hv

theorem Inv.change (h : Inv w) {ch : Change} (hw : w.change ch = some w') :
    Inv w' ∧ Rely w w' ∧ ∀ key, w'.owner key = w.owner key := by
  cases ch with
  | put device =>
    simp only [World.change, Option.ite_none_right_eq_some, Option.some.injEq] at hw
    obtain ⟨hd, rfl⟩ := hw
    obtain ⟨hi, hr⟩ := h.write_same rfl hd
    refine ⟨hi, hr, fun key => ?_⟩
    unfold World.owner
    rw [devices_setDevice]
    split
    · rename_i heq
      rw [heq]
      exact hd
    · rfl
  | sync =>
    cases hw
    obtain ⟨hi, hr⟩ := h.shows fun key => .inr ⟨_, (w.devices key).latest_shows⟩
    exact ⟨hi, hr, fun _ => rfl⟩

/-! ### Patches -/

/-- The owner of one device at most has changed, between nobody and `c`. -/
def Changes (c : ClaimRef) (w w' : World) : Prop :=
  ∀ key, w'.owner key = w.owner key ∨ w.owner key = none ∧ w'.owner key = some c ∨
    w.owner key = some c ∧ w'.owner key = none

theorem Changes.refl (c : ClaimRef) (w : World) : Changes c w w := fun _ => .inl rfl

theorem changes_setDevice {c : ClaimRef} {d : NVMeDevice}
    (hd : d.status.claimRef = w.owner key ∨ w.owner key = none ∧ d.status.claimRef = some c ∨
      w.owner key = some c ∧ d.status.claimRef = none) :
    Changes c w (w.setDevice key ((w.devices key).write (some d))) := by
  intro key'
  by_cases heq : key' = key
  · subst heq
    have hnew : (w.setDevice key' ((w.devices key').write (some d))).owner key' = d.status.claimRef := by
      unfold World.owner
      rw [devices_setDevice, if_pos rfl]
      rfl
    rw [hnew]
    exact hd
  · refine .inl ?_
    unfold World.owner
    rw [devices_setDevice, if_neg heq]

/-- **A rightful patch, based on what was shown**, keeps the invariant and changes owners rightfully. -/
theorem Inv.patchDevice (h : Inv w) {c : ClaimRef} {base obj : NVMeDevice}
    (hr : Rightful c base.status.claimRef obj.status.claimRef)
    (hs : (w.devices obj.key).Stands owner base.status.claimRef) :
    Inv (w.patchDevice base obj).2 ∧ Changes c w (w.patchDevice base obj).2 := by
  unfold World.patchDevice
  cases hcur : (w.devices obj.key).cur with
  | none => exact ⟨h, .refl c w⟩
  | some stored =>
    have hk : (World.patched base obj stored).key = obj.key := h.named obj.key stored (hcur ▸ Feed.cur_mem _)
    have howner : w.owner obj.key = stored.status.claimRef := by
      unfold World.owner
      rw [hcur]
      rfl
    simp only
    split
    swap
    · exact ⟨h, .refl c w⟩
    rename_i hallowed
    have hmerge : (World.patched base obj stored).status.claimRef =
        mergeField base.status.claimRef obj.status.claimRef stored.status.claimRef := rfl
    have hsame : (World.patched base obj stored).status.claimRef = stored.status.claimRef →
        Inv (w.setDevice obj.key ((w.devices obj.key).write (some (World.patched base obj stored)))) ∧
        Changes c w (w.setDevice obj.key ((w.devices obj.key).write (some (World.patched base obj stored)))) := by
      intro heq
      exact ⟨(h.write_same hk (heq.trans howner.symm)).1, changes_setDevice (.inl (heq.trans howner.symm))⟩
    rcases hr with heq | ⟨hbase, hnew⟩ | ⟨hbase, hnew⟩
    · exact hsame (by rw [hmerge, heq, mergeField_self])
    · -- the claim takes the device
      have hset : (World.patched base obj stored).status.claimRef = some c := by
        rw [hmerge, hbase, hnew]
        exact if_neg (Option.some_ne_none c)
      cases hst : stored.status.claimRef with
      | some c' =>
        rw [hset, hst] at hallowed
        exact hsame (by rw [hset, hst, of_decide_eq_true hallowed])
      | none =>
        rw [hbase] at hs
        exact ⟨h.write hk (.take hs (howner.trans hst)), changes_setDevice (.inr (.inl ⟨howner.trans hst, hset⟩))⟩
    · -- the claim gives the device up
      have hset : (World.patched base obj stored).status.claimRef = none := by
        rw [hmerge, hbase, hnew]
        exact if_neg (Option.some_ne_none c).symm
      rw [hbase] at hs
      refine ⟨h.write hk ((h.tame obj.key).release hs hset), changes_setDevice ?_⟩
      rcases hs.2 c rfl with hc | hnone
      · exact .inr (.inr ⟨hc, hset⟩)
      · exact .inl (hset.trans hnone.symm)

/-! ### Calls -/

theorem Inv.getDevice (h : Inv w) (skip : Key → ℕ) (key : Key) :
    Inv (w.getDevice skip key).2 ∧ Rely w (w.getDevice skip key).2 ∧
      ∀ d, (w.getDevice skip key).1 = .ok d →
        d.key = key ∧ ((w.getDevice skip key).2.devices d.key).Stands owner d.status.claimRef := by
  obtain ⟨v, hshows, hr⟩ := Slot.readCached_shows (skip key) (w.devices key)
  have hall : ∀ key', (w.getDevice skip key).2.devices key' = w.devices key' ∨
      ∃ v, (w.devices key').Shows v ((w.getDevice skip key).2.devices key') := by
    intro key'
    simp only [World.getDevice]
    rw [devices_setDevice]
    split
    · rename_i heq
      exact .inr ⟨v, heq ▸ hshows⟩
    · exact .inl rfl
  obtain ⟨hi, hrely⟩ := h.shows hall
  refine ⟨hi, hrely, fun d hd => ?_⟩
  rw [show (w.getDevice skip key).1 = found v from hr] at hd
  cases v with
  | none => cases hd
  | some d' =>
    cases hd
    have hk : d.key = key := h.named key d hshows.mem
    refine ⟨hk, ?_⟩
    simp only [World.getDevice]
    rw [devices_setDevice, if_pos hk]
    exact (h.tame key).stands hshows

theorem Inv.listDevices (h : Inv w) (s : Setting) (skip : Key → ℕ) :
    Inv (w.listDevices s skip).2 ∧ Rely w (w.listDevices s skip).2 ∧
      ∀ ds, (w.listDevices s skip).1 = .ok ds →
        ∀ d ∈ ds, ((w.listDevices s skip).2.devices d.key).Stands owner d.status.claimRef := by
  obtain ⟨hi, hrely⟩ := h.shows fun key => .inr ⟨_, (w.devices key).view_shows (skip key)⟩
  refine ⟨hi, hrely, fun ds hds d hd => ?_⟩
  cases hds
  obtain ⟨key, -, hshown⟩ := List.mem_filterMap.1 hd
  have hshows := (w.devices key).view_shows (skip key)
  rw [hshown] at hshows
  have hk : d.key = key := h.named key d hshows.mem
  rw [hk]
  exact (h.tame key).stands hshows

/-- **Whatever a call does keeps the invariant and changes owners rightfully**, if it is made when it may be. -/
theorem answer_kept (h : Inv w) {ch : Choice} {req : Key} {c : Call} {r : c.Resp} (hreq : Req req c w)
    (ha : answer s ch c w = some (r, w')) :
    Inv w' ∧ ((∀ key, w'.owner key = w.owner key) ∨ ∃ c, w.claim = some c ∧ c.key = req ∧ Changes c w w') := by
  have hsame : ∀ {w1 : World}, Inv w1 → (∀ key, w1.owner key = w.owner key) → (w' = w ∨ w' = w1) →
      Inv w' ∧ ((∀ key, w'.owner key = w.owner key) ∨ ∃ c, w.claim = some c ∧ c.key = req ∧ Changes c w w') := by
    rintro w1 hi ho (rfl | rfl)
    · exact ⟨h, .inl fun _ => rfl⟩
    · exact ⟨hi, .inl ho⟩
  unfold answer at ha
  split at ha
  · split at ha
    · exact hsame h (fun _ => rfl) (Fate.answer_state ha)
    rename_i claim _
    have hi : Inv { w with claim := some (reference claim) } := ⟨h.named, h.tame⟩
    exact hsame hi (fun _ => rfl) (Fate.answer_state (Option.ite_none_right_eq_some.1 ha).2)
  · split at ha
    · exact hsame h (fun _ => rfl) (Fate.answer_state ha)
    · exact hsame h (fun _ => rfl) (Fate.answer_state (Option.ite_none_right_eq_some.1 ha).2)
  · rename_i key
    refine hsame (h.getDevice ch.skip key).1 (fun key' => ?_) (Fate.answer_state ha)
    unfold World.owner
    simp only [World.getDevice]
    rw [devices_setDevice]
    split
    · rename_i heq
      rw [heq, (Slot.readCached_shows (ch.skip key) (w.devices key)).choose_spec.1.cur_eq]
    · rfl
  · refine hsame (h.listDevices s ch.skip).1 (fun key' => ?_) (Fate.answer_state ha)
    unfold World.owner
    simp only [World.listDevices]
    rw [((w.devices key').view_shows (ch.skip key')).cur_eq]
  · obtain ⟨c, hc, hk, hr, hs⟩ := hreq
    obtain ⟨hi, hchanges⟩ := h.patchDevice hr hs
    rcases Fate.answer_state ha with rfl | rfl
    · exact ⟨h, .inl fun _ => rfl⟩
    · exact ⟨hi, .inr ⟨c, hc, hk, hchanges⟩⟩
  · cases ha
  · cases ha
  · cases ha
  · cases ha
  · obtain ⟨_, -, heq⟩ := Option.map_eq_some_iff.1 ha
    cases (Prod.mk.inj heq).2
    exact ⟨h, .inl fun _ => rfl⟩

/-- A call that shows no claim and patches no device. -/
def neutral : Call → Bool
  | .api (.get .claim _ _) | .api (.patchStatus .device _ _) => false
  | _ => true

theorem answer_neutral (h : Inv w) {ch : Choice} {c : Call} {r : c.Resp} (hc : neutral c = true)
    (ha : answer s ch c w = some (r, w')) : Rely w w' := by
  have hmove : ∀ {w1 : World}, Rely w w1 → (w' = w ∨ w' = w1) → Rely w w' := by
    rintro w1 hr (rfl | rfl)
    · exact .refl w'
    · exact hr
  unfold answer at ha
  split at ha
  · cases hc
  · split at ha
    · exact hmove (.refl w) (Fate.answer_state ha)
    · exact hmove (.refl w) (Fate.answer_state (Option.ite_none_right_eq_some.1 ha).2)
  · exact hmove (h.getDevice ch.skip _).2.1 (Fate.answer_state ha)
  · exact hmove (h.listDevices s ch.skip).2.1 (Fate.answer_state ha)
  · cases hc
  · cases ha
  · cases ha
  · cases ha
  · cases ha
  · obtain ⟨_, -, heq⟩ := Option.map_eq_some_iff.1 ha
    cases (Prod.mk.inj heq).2
    exact .refl w

/-! ### The worker -/

section

variable [StdLib] {req : Key}

/-- The outline of all reconciliations: they run one after the other, so that none has to mind another. -/
def outline (s : Setting) : Outline (machine s).system where
  Inv := Inv
  Rely _ := Rely
  Guar _ _ _ := True
  Req := Req
  Post _ _ _ := True
  rely_refl _ := .refl
  rely_trans _ := .trans
  init := by
    intro w hw
    refine ⟨fun key d hd => ?_, fun key => ?_⟩
    · rw [hw key] at hd
      cases List.mem_singleton.1 hd
    · rw [hw key]
      exact .single owner none
  env := by
    rintro w w' hi ⟨ch, hw⟩
    obtain ⟨hi', hr, -⟩ := hi.change hw
    exact ⟨hi', fun _ => hr⟩
  guar i j w w' htog := by
    simp [Machine.system, machine] at htog

theorem call_safe {c : Call} {Q : c.Resp → World → Prop} (hreq : ∀ w1, Rely w w1 → Req req c w1)
    (hQ : ∀ r w1 w2, Q r w1 → Rely w1 w2 → Q r w2)
    (hstep : ∀ ch w1 r w2, Rely w w1 → Inv w1 → answer s ch c w1 = some (r, w2) → Q r w2) :
    (outline s).Safe req Q (.call c .ret) w := by
  refine .call (fun w1 hr _ => hreq w1 hr) fun w1 r w2 hr hi ⟨ch, ha⟩ => ?_
  refine ⟨(answer_kept hi (hreq w1 hr) ha).1, trivial, Terms.Safe.ret fun w3 hr3 _ => hQ r w2 w3 ?_ hr3⟩
  exact hstep ch w1 r w2 hr hi ha

theorem neutral_safe {α : Type} {p : Proc α} {I : World → Prop} (hp : p.Only (neutral ·)) (hw : I w)
    (hI : ∀ w1 w2, I w1 → Rely w1 w2 → I w2) : (outline s).Safe req (fun _ => I) p w := by
  have hreq : ∀ c w1, neutral c = true → Req req c w1 := by
    intro c w1 hc
    unfold Req
    split
    · cases hc
    · trivial
  refine .of_only hp hw hI (fun c w1 hc _ _ => hreq c w1 hc) ?_
  rintro c w1 r w2 hc hi hI1 ⟨ch, ha⟩
  exact ⟨(answer_kept hi (hreq c w1 hc) ha).1, trivial, hI w1 w2 hI1 (answer_neutral hi hc ha)⟩

/-- The worker reconciles the claim, and the devices with the property that were shown to be owned by it are
its own or nobody's. -/
structure Holds (req : Key) (claim : NVMeDeviceClaim) (P : NVMeDevice → Prop) (w : World) : Prop where
  shown : w.claim = some (reference claim)
  key : (reference claim).key = req
  stands : ∀ d, P d → d.status.claimRef = some (reference claim) →
    (w.devices d.key).Stands owner (some (reference claim))

variable {claim : NVMeDeviceClaim} {P : NVMeDevice → Prop}

omit [StdLib] in
theorem Holds.mono {w1 w2 : World} (h : Holds req claim P w1) (hr : Rely w1 w2) : Holds req claim P w2 :=
  ⟨hr.claim.trans h.shown, h.key, fun d hd ho => hr.stands _ _ (h.stands d hd ho)⟩

omit [StdLib] in
theorem Holds.weaken {Q : NVMeDevice → Prop} (h : Holds req claim P w) (hq : ∀ d, Q d → P d) : Holds req claim Q w :=
  ⟨h.shown, h.key, fun d hd => h.stands d (hq d hd)⟩

variable {d : NVMeDevice}

omit [StdLib] in
theorem Holds.release (h : Holds req claim P w) (hd : d.status.claimRef = some (reference claim)) :
    Holds req claim P (w.patchDevice d (released d)).2 := by
  unfold World.patchDevice
  cases hcur : (w.devices (released d).key).cur with
  | none => exact h
  | some stored =>
    simp only
    split
    swap
    · exact h
    refine ⟨h.shown, h.key, fun d' hd' ho => ?_⟩
    rw [devices_setDevice]
    split
    · refine Feed.Stands.release ?_
      show (World.patched d (released d) stored).status.claimRef = none
      have hmerge : (World.patched d (released d) stored).status.claimRef =
          mergeField d.status.claimRef none stored.status.claimRef := rfl
      rw [hmerge, hd]
      exact if_neg (Option.some_ne_none _).symm
    · exact h.stands d' hd' ho

theorem releaseDevice_safe (hd : P d) (hw : Holds req claim P w) :
    (outline s).Safe req (fun _ => Holds req claim P) (releaseDevice claim d) w := by
  unfold releaseDevice
  split
  · exact .ret fun w1 hr _ => hw.mono hr
  rename_i howns
  rw [Bool.not_eq_true', Bool.not_eq_false] at howns
  have hown := claimOwnsDevice_iff.1 howns
  have hpatch : (outline s).Safe req (fun _ => Holds req claim P) (patchStatus .device d (released d)) w := by
    refine call_safe (fun w1 hr => ?_) (fun _ _ _ h hr => h.mono hr) ?_
    · have h1 := hw.mono hr
      refine ⟨_, h1.shown, h1.key, .inr (.inr ⟨hown, rfl⟩), ?_⟩
      rw [hown]
      exact h1.stands d hd hown
    · intro ch w1 r w2 hr _ ha
      rcases Fate.answer_state ha with rfl | rfl
      · exact hw.mono hr
      · exact (hw.mono hr).release hown
  exact .andThen hpatch (fun _ _ h1 => .ret fun _ hr _ => h1.mono hr) fun _ _ h1 => .ret fun _ hr _ => h1.mono hr

theorem releaseOthers_safe (name : Str) {ds : List NVMeDevice} (hP : ∀ d ∈ ds, d.metadata.name ≠ name → P d)
    (hw : Holds req claim P w) : (outline s).Safe req (fun _ => Holds req claim P) (releaseOthers claim name ds) w := by
  induction ds generalizing w with
  | nil => exact .ret fun w1 hr _ => hw.mono hr
  | cons d ds ih =>
    have hrest : ∀ d ∈ ds, d.metadata.name ≠ name → P d := fun d' hd' => hP d' (List.mem_cons_of_mem _ hd')
    unfold releaseOthers
    split
    · rename_i hcond
      simp only [ne_eq, Bool.and_eq_true, decide_eq_true_eq] at hcond
      exact .andThen (releaseDevice_safe (hP d List.mem_cons_self hcond.1) hw) (fun _ _ h1 => .ret fun w2 hr _ => h1.mono hr)
          fun _ _ h1 => ih hrest h1
    · exact ih hrest hw

/-! ### Programs that change no owner -/

theorem updateClaimStatus_safe {b : Binding} : (outline s).Complies req (updateClaimStatus .cache claim b) w := by
  have hget : (outline s).Complies req (get .claim .cache claim.key) w :=
    call_safe (fun _ _ => trivial) (fun _ _ _ _ _ => trivial) (fun _ _ _ _ _ _ _ => trivial)
  refine .next hget fun latest w1 _ => ?_
  exact neutral_safe (.next (only_op rfl) fun _ => only_done _) trivial fun _ _ _ _ => trivial

theorem listDevices_safe (hw : Holds req claim P w) : (outline s).Safe req (fun r w1 => Holds req claim P w1 ∧
      ∀ ds, r = .ok ds → ∀ d ∈ ds, (w1.devices d.key).Stands owner d.status.claimRef) (list .device .cache) w := by
  refine call_safe (fun _ _ => trivial)
    (fun r w1 w2 h hr => ⟨h.1.mono hr, fun ds hds d hd => hr.stands _ _ (h.2 ds hds d hd)⟩) ?_
  intro ch w1 r w2 hr hi ha
  have h1 := hw.mono hr
  refine ⟨h1.mono (answer_neutral hi rfl ha), fun ds hds => ?_⟩
  subst hds
  have hserved : w1.listDevices s ch.skip = (.ok ds, w2) := Fate.answer_ok ha
  simpa only [hserved] using (hi.listDevices s ch.skip).2.2 ds (by rw [hserved])

theorem getDevice_safe {key : Key} (hw : Holds req claim P w) : (outline s).Safe req (fun r w1 => Holds req claim P w1 ∧
      ∀ d, r = .ok d → (w1.devices d.key).Stands owner d.status.claimRef) (get .device .cache key) w := by
  refine call_safe (fun _ _ => trivial) (fun r w1 w2 h hr => ⟨h.1.mono hr, fun d hd => hr.stands _ _ (h.2 d hd)⟩) ?_
  intro ch w1 r w2 hr hi ha
  have h1 := hw.mono hr
  refine ⟨h1.mono (answer_neutral hi rfl ha), fun d hd => ?_⟩
  subst hd
  have hserved : w1.getDevice ch.skip key = (.ok d, w2) := Fate.answer_ok ha
  simpa only [hserved] using ((hi.getDevice ch.skip key).2.2 d (by rw [hserved])).2

/-! ### Finalization -/

theorem releaseMatched_safe (hw : Holds req claim (fun _ => False) w) :
    (outline s).Safe req (fun _ => Holds req claim fun _ => False) (releaseMatched .cache claim) w := by
  unfold releaseMatched
  split
  · refine .andThen (getDevice_safe hw) (fun _ _ h1 => ?_) fun d w1 h1 => ?_
    · split <;> exact .ret fun w2 hr _ => h1.1.mono hr
    have hd : Holds req claim (· = d) w1 := ⟨h1.1.shown, h1.1.key, by
      rintro _ rfl hown
      exact hown ▸ h1.2 _ rfl⟩
    exact (releaseDevice_safe (P := (· = d)) rfl hd).conseq fun _ _ _ h => h.weaken fun _ => False.elim
  · exact .ret fun w1 hr _ => hw.mono hr

theorem finalizeClaim_safe (hw : Holds req claim (fun _ => False) w) :
    (outline s).Complies req (finalizeClaim .cache claim) w := by
  unfold finalizeClaim
  split
  · exact .ended
  have hlist : (outline s).Safe req (fun _ => Holds req claim fun _ => False) (list .partition .cache) w :=
    neutral_safe (only_op rfl) hw fun _ _ h hr => h.mono hr
  refine .next hlist fun partitions w1 h1 => ?_
  split
  · exact .ended
  refine .next (releaseMatched_safe h1) fun _ w2 h2 => ?_
  refine .next (listDevices_safe h2) fun ds w3 h3 => ?_
  have hds : Holds req claim (· ∈ ds) w3 := ⟨h3.1.shown, h3.1.key, fun d hd hown => hown ▸ h3.2 ds rfl d hd⟩
  refine .next (releaseOthers_safe _ (fun _ hd _ => hd) hds) fun _ w4 h4 => ?_
  exact neutral_safe (.next (only_op rfl) fun _ => only_done _) trivial fun _ _ _ _ => trivial

/-! ### Binding -/

section

omit [StdLib]

theorem claimRef_of_not_ownedByAnother (h : ownedByAnother claim d = false) :
    d.status.claimRef = none ∨ d.status.claimRef = some (reference claim) := by
  rw [← claimOwnsDevice_iff]
  simp only [ownedByAnother, Bool.or_eq_false_iff, Bool.and_eq_false_iff] at h
  rcases h.1 with hnone | howned
  · exact .inl (by simpa using hnone)
  · exact .inr (by simpa using howned)

theorem Holds.elsewhere (h : Holds req claim P w) {base obj : NVMeDevice} (hP : ∀ d, P d → d.key ≠ obj.key) :
    Holds req claim P (w.patchDevice base obj).2 := by
  unfold World.patchDevice
  split
  · exact h
  split
  · refine ⟨h.shown, h.key, fun d hd hown => ?_⟩
    rw [devices_setDevice, if_neg (hP d hd)]
    exact h.stands d hd hown
  · exact h

theorem key_patchDevice (h : Inv w) {base obj d : NVMeDevice} (hd : (w.patchDevice base obj).1 = .ok d) :
    d.key = obj.key := by
  unfold World.patchDevice at hd
  split at hd
  · cases hd
  rename_i stored hcur
  split at hd
  · cases hd
    exact h.named obj.key stored (hcur ▸ Feed.cur_mem _)
  · cases hd

end

theorem bindDevice_safe (hfree : ownedByAnother claim d = false)
    (hw : Holds req claim P w) (hd : (w.devices d.key).Stands owner d.status.claimRef) : (outline s).Safe req
      (fun r w1 => Holds req claim (fun d' => P d' ∧ d'.metadata.name ≠ d.metadata.name) w1 ∧
        ∀ d', r = .ok d' → d'.metadata.name = d.metadata.name) (patchStatus .device d (bound claim d)) w := by
  refine call_safe (fun w1 hr => ?_) (fun _ _ _ h hr => ⟨h.1.mono hr, h.2⟩) ?_
  · have h1 := hw.mono hr
    refine ⟨_, h1.shown, h1.key, ?_, hr.stands _ _ hd⟩
    rcases claimRef_of_not_ownedByAnother hfree with hnone | howned
    · exact .inr (.inl ⟨hnone, rfl⟩)
    · exact .inl howned
  · intro ch w1 r w2 hr hi ha
    have h1 := (hw.mono hr).weaken (Q := fun d' => P d' ∧ d'.metadata.name ≠ d.metadata.name) fun _ => And.left
    refine ⟨?_, fun d' hd' => ?_⟩
    · rcases Fate.answer_state ha with rfl | rfl
      · exact h1
      · exact h1.elsewhere fun d' hd' heq => hd'.2 (congrArg Key.name heq)
    · subst hd'
      have hserved : w1.patchDevice d (bound claim d) = (.ok d', w2) := Fate.answer_ok ha
      exact congrArg Key.name (key_patchDevice hi (congrArg Prod.fst hserved))

theorem reconcileClaimBinding_safe (hw : Holds req claim (fun _ => False) w) :
    (outline s).Complies req (reconcileClaimBinding .cache claim) w := by
  have hend : ∀ {b : Binding} {n : Result} {w1 : World}, (outline s).Complies req
      ((updateClaimStatus .cache claim b).check fail fun _ => done n) w1 :=
    .next updateClaimStatus_safe fun _ _ _ => .ended
  unfold reconcileClaimBinding
  refine .next (listDevices_safe hw) fun ds w1 h1 => ?_
  have hds : Holds req claim (· ∈ ds) w1 := ⟨h1.1.shown, h1.1.key, fun d hd hown => hown ▸ h1.2 ds rfl d hd⟩
  simp only
  split
  · exact hend
  · rename_i d hmatch
    split
    · exact hend
    rename_i hfree
    have hd : d ∈ ds := by
      have hmem : d ∈ [d] := List.mem_singleton_self d
      rw [← hmatch] at hmem
      exact List.mem_of_mem_filter (List.mem_of_mem_filter hmem)
    refine .next (bindDevice_safe (Bool.eq_false_iff.2 hfree) hds (h1.2 ds rfl d hd)) fun d' w2 h2 => ?_
    have hothers : (outline s).Complies req (releaseOthers claim d'.metadata.name
        (ds.filter fun d => equalFold d.spec.serialNumber claim.spec.serialNumber)) w2 := by
      refine (releaseOthers_safe _ (fun d2 hd2 hne => ?_) h2.1).conseq fun _ _ _ _ => trivial
      exact ⟨List.mem_of_mem_filter hd2, h2.2 d' rfl ▸ hne⟩
    exact .next hothers fun _ _ _ => hend
  · exact hend

/-! ### Reconciliation -/

theorem ensureFinalizer_safe (hw : Holds req claim (fun _ => False) w) :
    (outline s).Safe req (fun r w1 => ∀ claim', r = .ok claim' → Holds req claim' (fun _ => False) w1)
      (ensureFinalizer claim) w := by
  unfold ensureFinalizer
  split
  · refine .ret fun w1 hr _ claim' hc => ?_
    cases hc
    exact hw.mono hr
  · refine call_safe (fun _ _ => trivial) (fun _ _ _ h hr claim' hc => (h claim' hc).mono hr) ?_
    intro ch w1 r w2 hr hi ha claim' hc
    subst hc
    have h2 := (hw.mono hr).mono (answer_neutral hi rfl ha)
    have hsame : reference claim' = reference claim := by
      have hadd : reference (claim.addFinalizer claimFinalizer) = reference claim := by
        unfold Object.addFinalizer
        split <;> rfl
      simp only [answer] at ha
      split at ha
      · cases Fate.answer_ok ha
      obtain ⟨heq, hans⟩ := Option.ite_none_right_eq_some.1 ha
      cases Fate.answer_ok hans
      exact heq.trans hadd
    exact ⟨hsame ▸ h2.shown, hsame ▸ h2.key, fun _ => False.elim⟩

/-- **The worker keeps to its terms.** -/
theorem reconcile_safe : (outline s).Complies req (Claim.reconcile .cache req) w := by
  have hget : (outline s).Safe req
      (fun r w1 => ∀ claim, r = .ok claim → Holds req claim (fun _ => False) w1) (get .claim .cache req) w := by
    refine call_safe (fun _ _ => trivial) (fun _ _ _ h hr claim hc => (h claim hc).mono hr) ?_
    intro ch w1 r w2 _ _ ha claim hc
    subst hc
    simp only [answer] at ha
    split at ha
    · cases Fate.answer_ok ha
    obtain ⟨heq, hans⟩ := Option.ite_none_right_eq_some.1 ha
    cases Fate.answer_ok hans
    exact ⟨rfl, heq, fun _ => False.elim⟩
  unfold Claim.reconcile
  refine .andThen hget (fun _ _ _ => ?_) fun claim w1 h1 => ?_
  · split <;> exact .ended
  split
  · exact finalizeClaim_safe (h1 claim rfl)
  exact .next (ensureFinalizer_safe (h1 claim rfl)) fun claim' _ h2 => reconcileClaimBinding_safe (h2 claim' rfl)

/-- **Ownership is never stolen.**  A step that changes the stored reference of a device is one of a
reconciliation, and it sets the reference from nobody to the claim that is reconciled, by namespace, name and
identity, or from that claim to nobody. -/
theorem owner_changes_hands {pool pool' : Pool Call Call.Resp World Key (Except Err Result)}
    (h : (machine s).system.Reachable pool) (hstep : (machine s).system.Step pool pool') {key : Key}
    (hne : pool'.world.owner key ≠ pool.world.owner key) :
    ∃ c : ClaimRef, pool.world.claim = some c ∧ (∃ p, (c.key, p) ∈ pool.threads) ∧
      (pool.world.owner key = none ∧ pool'.world.owner key = some c ∨
        pool.world.owner key = some c ∧ pool'.world.owner key = none) := by
  have hkept : (outline s).Kept pool := Outline.Kept.reachable (fun _ _ _ _ _ => reconcile_safe) h
  cases hstep with
  | start j hj hw =>
    cases Option.some.inj hw
    exact absurd rfl hne
  | @run w w' l₁ l₂ j c k r hr =>
    obtain ⟨ch, ha⟩ := hr
    have hmem : (j, .call c k) ∈ l₁ ++ (j, .call c k) :: l₂ := by simp
    rcases (answer_kept hkept.inv (hkept.req hmem) ha).2 with hsame | ⟨ref, hclaim, rfl, hchanges⟩
    · exact absurd (hsame key) hne
    · exact ⟨ref, hclaim, ⟨_, hmem⟩, (hchanges key).resolve_left hne⟩
  | env he =>
    obtain ⟨ch, hch⟩ := he
    exact absurd ((hkept.inv.change hch).2.2 key) hne
  | drop => exact absurd rfl hne

end

/-! ### A run -/

section

attribute [local instance] asciiLib

def freeDevice : NVMeDevice := { sampleDevice with status := { state := .available } }

/-- A call of the worker, where everything that is not in the state is answered as if there were a claim. -/
def serve : Choice where
  claim := some sampleClaim
  reply := fun c => match c with
    | .api (.patchStatus .claim _ obj) => some (.ok obj)
    | _ => none

/-- The next call of the worker changes the owner of the device. -/
def binds (c : Pool Call Call.Resp World Key (Except Err Result)) : Bool :=
  ((machine ⟨[freeDevice.key]⟩).act (.run 0 serve) c).any fun c' =>
    c'.world.owner freeDevice.key ≠ c.world.owner freeDevice.key

/-- A claim is bound to a device. -/
theorem owner_changes_hands_bound : ∃ pool pool', (machine ⟨[freeDevice.key]⟩).system.Reachable pool ∧
    (machine ⟨[freeDevice.key]⟩).system.Step pool pool' ∧
    pool'.world.owner freeDevice.key ≠ pool.world.owner freeDevice.key ∧
    ∃ c : ClaimRef, pool.world.claim = some c ∧ (∃ p, (c.key, p) ∈ pool.threads) ∧
      (pool.world.owner freeDevice.key = none ∧ pool'.world.owner freeDevice.key = some c ∨
        pool.world.owner freeDevice.key = some c ∧ pool'.world.owner freeDevice.key = none) := by
  obtain ⟨pool, hpool, hp⟩ := Machine.exists_reachable
    [.env { change := .put freeDevice }, .env { change := .sync }, .start sampleClaim.key,
      .run 0 serve, .run 0 serve, .run 0 serve] ⟨fun _ => ⟨[], none⟩, none⟩ binds
    (show (machine ⟨[freeDevice.key]⟩).init _ from fun _ => rfl) (by decide +kernel)
  obtain ⟨pool', hact, hne⟩ := (Option.any_eq_true _ _).1 hp
  have hstep := Machine.act_step hact
  have hne' := of_decide_eq_true hne
  exact ⟨pool, pool', hpool, hstep, hne', owner_changes_hands hpool hstep hne'⟩

end

end Distort.Manager.Ownership
