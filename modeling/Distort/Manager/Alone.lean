import Mathlib.Data.Set.Basic
import Distort.Manager.Agreement

/-!
A reconciler of the manager that is alone with the API server.

Nothing fails and every read is fresh.  What is left open is the order of the objects in an answer to a list, and the
time, which is one of `times` at each look at the clock.
-/

namespace Distort.Manager

open Go Lib Lib.Kube Lib.Prog Api Proc Agreement

namespace Agreement.Cluster

def patchDevice (base obj : NVMeDevice) (w : Cluster) : Except Err NVMeDevice × Cluster :=
  ((w.devices.patchStatus NVMeDeviceStatus.merge base obj).1,
    { w with devices := (w.devices.patchStatus NVMeDeviceStatus.merge base obj).2 })

def patchClaim (base obj : NVMeDeviceClaim) (w : Cluster) : Except Err NVMeDeviceClaim × Cluster :=
  ((w.claims.patchStatus NVMeDeviceClaimStatus.merge base obj).1,
    { w with claims := (w.claims.patchStatus NVMeDeviceClaimStatus.merge base obj).2 })

/-- A read of one object, and of all of them in any order. -/
def Reads {α : Type} (w : Cluster) (stored r : α) (w' : Cluster) : Prop := r = stored ∧ w' = w

def Lists {α : Type} (w : Cluster) (stored : List α) (r : Except Err (List α)) (w' : Cluster) : Prop :=
  (∃ l, r = .ok l ∧ l.Perm stored) ∧ w' = w

def alone (times : Set ℤ) : Server Call Call.Resp Cluster
  | .api (.get .partition _ key), w, r, w' => w.Reads (found (w.partitions.find key)) r w'
  | .api (.get .device _ key), w, r, w' => w.Reads (found (w.devices.find key)) r w'
  | .api (.get .claim _ key), w, r, w' => w.Reads (found (w.claims.find key)) r w'
  | .api (.get .node _ key), w, r, w' => w.Reads (found (w.nodes.find key)) r w'
  | .api (.list .partition _), w, r, w' => w.Lists w.partitions.objects r w'
  | .api (.list .device _), w, r, w' => w.Lists w.devices.objects r w'
  | .api (.list .node _), w, r, w' => w.Lists w.nodes.objects r w'
  | .api (.patchStatus .partition base obj), w, r, w' => (r, w') = w.patchStatus base obj
  | .api (.patchStatus .device base obj), w, r, w' => (r, w') = w.patchDevice base obj
  | .api (.patchStatus .claim base obj), w, r, w' => (r, w') = w.patchClaim base obj
  | .api (.update .partition obj), w, r, w' => (r, w') = w.update (fun _ _ => true) obj
  | .proc .now, w, t, w' => t ∈ times ∧ w' = w
  | .proc (.lock _), w, _, w' => w' = w
  | .proc (.unlock _), w, _, w' => w' = w
  | _, _, _, _ => False

end Agreement.Cluster

open Cluster (alone)

variable {times : Set ℤ} {w : Cluster}

/-! ### Requests -/

theorem ensures_get {r : Resource} {via : Reader} {key : Key} {stored : Except Err r.Obj}
    {Q : Except Err r.Obj → Cluster → Prop}
    (hserve : ∀ a w', alone times (.api (.get r via key)) w a w' ↔ w.Reads stored a w') (hQ : Q stored w) :
    Ensures (alone times) Q (get r via key) w := by
  refine .op ⟨stored, w, (hserve _ _).2 ⟨rfl, rfl⟩⟩ fun a w' h => ?_
  obtain ⟨rfl, rfl⟩ := (hserve _ _).1 h
  exact hQ

theorem ensures_list {r : Resource} {via : Reader} {stored : List r.Obj} {Q : Except Err (List r.Obj) → Cluster → Prop}
    (hserve : ∀ a w', alone times (.api (.list r via)) w a w' ↔ w.Lists stored a w')
    (hQ : ∀ l, l.Perm stored → Q (.ok l) w) : Ensures (alone times) Q (list r via) w := by
  refine .op ⟨.ok stored, w, (hserve _ _).2 ⟨⟨stored, rfl, .refl _⟩, rfl⟩⟩ fun a w' h => ?_
  obtain ⟨⟨l, rfl, hl⟩, rfl⟩ := (hserve _ _).1 h
  exact hQ l hl

theorem ensures_write {c : Call} {a : c.Resp × Cluster} {Q : c.Resp → Cluster → Prop}
    (hserve : ∀ r w', alone times c w r w' ↔ (r, w') = a) (hQ : Q a.1 a.2) :
    Ensures (alone times) Q (.call c .ret) w := by
  refine .op ⟨a.1, a.2, (hserve _ _).2 rfl⟩ fun r w' h => ?_
  obtain ⟨rfl, rfl⟩ := Prod.mk.inj ((hserve _ _).1 h)
  exact hQ

theorem ensures_now {Q : ℤ → Cluster → Prop} (hex : times.Nonempty) (hQ : ∀ t ∈ times, Q t w) :
    Ensures (alone times) Q now w := by
  obtain ⟨t, ht⟩ := hex
  refine .op ⟨t, w, ht, rfl⟩ ?_
  rintro t' _ ⟨ht', rfl⟩
  exact hQ t' ht'

theorem ensures_lock {name : Str} {Q : Unit → Cluster → Prop} (hQ : Q () w) : Ensures (alone times) Q (lock name) w := by
  refine .op ⟨(), w, rfl⟩ ?_
  rintro _ _ rfl
  exact hQ

theorem ensures_unlock {name : Str} {Q : Unit → Cluster → Prop} (hQ : Q () w) :
    Ensures (alone times) Q (unlock name) w := by
  refine .op ⟨(), w, rfl⟩ ?_
  rintro _ _ rfl
  exact hQ

end Distort.Manager
