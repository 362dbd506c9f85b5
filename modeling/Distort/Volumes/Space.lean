import Mathlib.Algebra.BigOperators.Ring.List
import Distort.Agent.Discovery
import Distort.Volumes.Parted

/-!
Whether the space that is accounted can be carved.

Placement counts bytes; a partition needs them in one piece.  On a disk whose partitions lie one after the other
(`Tight`) there is one free range after them, and it is as long as the accounting says.

* `Chosen.packed` — a new partition goes right after the others;
* `body_tight` — this stays so as long as only the last partition is ever taken away;
* `admitted_fits` — and then an admitted request finds its range.
-/

namespace Distort.Volumes

open Go Lib Lib.Prog Agent Agent.Parted Proc

/-- Where the first partition starts: the first boundary after the partition table. -/
def firstBoundary : ℤ := 1048576

/-- A disk of `rawBytes` bytes without the first 34 and the last 33 sectors. -/
def Drive.IsGpt (drive : Drive) (rawBytes : ℤ) : Prop :=
  rawBytes ≤ maxInt64 ∧ drive.first = 34 * 512 ∧ drive.last = rawBytes - 33 * 512 - 1

/-- What the accounting charges for a volume. -/
def Slot.charged (s : Slot) : ℤ := (Capacity.roundUp s.requested).toOption.getD 0

/-- No hole between the partitions. -/
def Tight (t : Table) : Prop := ∀ slots, t = some slots → Packed firstBoundary (slots.map Slot.span)

/-- What is missing in the second table lies after all that is left. -/
def lastsFirst : Table → Table → Bool
  | some slots, some slots' => slots.all fun s => s ∈ slots' || slots'.all fun s' => s'.span.last < s.span.first
  | _, _ => true

/-- Only the last partition is taken away. -/
def fromTheEnd (S : Server Call Call.Resp Table) : Server Call Call.Resp Table := fun c t r t' =>
  S c t r t' ∧ lastsFirst t t' = true

/-! ### The free ranges of a tight disk -/

variable {drive : Drive} {slots : List Slot}

theorem Sound.total_eq (h : Sound drive slots) : total (slots.map Slot.span) = (slots.map Slot.charged).sum := by
  rw [total, List.map_map]
  congr 1
  refine List.map_congr_left fun s hs => ?_
  rw [Slot.charged, h.size s hs]
  rfl

theorem Sound.total_aligned (h : Sound drive slots) : total (slots.map Slot.span) % 1048576 = 0 := by
  refine Int.emod_eq_zero_of_dvd (List.dvd_sum fun x hx => ?_)
  rw [List.map_map] at hx
  obtain ⟨s, hs, rfl⟩ := List.mem_map.1 hx
  obtain ⟨-, -, hlength⟩ := Capacity.roundUp_eq_ok.1 (h.size s hs)
  have hunit : Capacity.allocationUnitBytes = 4194304 := rfl
  change 1048576 ∣ s.span.length
  rw [hlength, hunit]
  exact Dvd.dvd.mul_left (by decide) _

/-- The free ranges: the space after the partitions, and, once there is one, the space before them. -/
theorem Drive.free_tight {rawBytes : ℤ} (hgpt : drive.IsGpt rawBytes)
    (htight : Packed firstBoundary (slots.map Slot.span)) :
    drive.free slots = if slots = [] then (if drive.first ≤ drive.last then [⟨drive.first, drive.last⟩] else [])
      else ⟨drive.first, firstBoundary - 1⟩ :: (if firstBoundary + total (slots.map Slot.span) ≤ drive.last then
          [⟨firstBoundary + total (slots.map Slot.span), drive.last⟩] else []) := by
  obtain ⟨-, hfirst, -⟩ := hgpt
  by_cases hne : slots = []
  · subst hne
    rw [if_pos rfl, Drive.free, List.map_nil, freeSpans, List.insertionSort_nil, gaps]
    split <;> rfl
  · have hboundary : drive.first < firstBoundary := by
      rw [hfirst, firstBoundary]
      omega
    rw [if_neg hne, Drive.free, freeSpans_packed htight hboundary (by simpa using hne), gaps]
    split <;> rfl

/-- **A new partition goes right after the others.** -/
theorem Chosen.packed {rawBytes : ℤ} (hgpt : drive.IsGpt rawBytes) (h : Sound drive slots)
    (htight : Packed firstBoundary (slots.map Slot.span)) {s : Slot} (hfits : Fits drive slots s)
    (hchosen : Chosen drive slots s) : Packed firstBoundary ((slots ++ [s]).map Slot.span) := by
  obtain ⟨extents, hperm, hfit⟩ := hchosen
  obtain ⟨hpos, hmax⟩ := Capacity.roundUp_pos hfits.size
  have hdrive := drive.first_nonneg
  have hlast := drive.last_le
  have haligned := h.total_aligned
  obtain ⟨hsize, e, he, hstart, hstop⟩ := firstFit_spec hpos hmax (h.free_inRange hperm) hfit
  rw [boundary] at hstart
  have he := hperm.mem_iff.1 he
  rw [drive.free_tight hgpt htight] at he
  have hboundary : firstBoundary = 1048576 := rfl
  have hfirst : drive.first = 17408 := hgpt.2.1
  have hnext : s.span.first = firstBoundary + total (slots.map Slot.span) := by
    split at he
    · rename_i hnil
      subst hnil
      split at he
      · obtain rfl := List.mem_singleton.1 he
        rw [List.map_nil, total, List.map_nil, List.sum_nil]
        dsimp only at hstart
        omega
      · cases he
    · rcases List.mem_cons.1 he with rfl | he
      · -- before the first boundary there is no room
        dsimp only at hstart hstop
        omega
      · split at he
        · obtain rfl := List.mem_singleton.1 he
          dsimp only at hstart
          omega
        · cases he
  rw [List.map_append]
  exact htight.append hnext (by omega)

/-- **Admitted space is found.** -/
theorem Sound.finds {rawBytes : ℤ} (hgpt : drive.IsGpt rawBytes) (h : Sound drive slots)
    (htight : Packed firstBoundary (slots.map Slot.span)) {extents : List Extent} (hperm : extents.Perm (drive.free slots))
    {allocated : ℤ} (hpos : 0 < allocated) (hroom : firstBoundary + total (slots.map Slot.span) + allocated - 1 ≤ drive.last) :
    ∃ range, selectFreeExtent extents allocated = .ok range := by
  have hboundary : firstBoundary = 1048576 := rfl
  have hfirst : drive.first = 17408 := hgpt.2.1
  have hlast := drive.last_le
  have haligned := h.total_aligned
  have htotal : 0 ≤ total (slots.map Slot.span) := by
    refine List.sum_nonneg fun x hx => ?_
    rw [List.map_map] at hx
    obtain ⟨s, hs, rfl⟩ := List.mem_map.1 hx
    exact (Capacity.roundUp_pos (h.size s hs)).1.le
  have hfound : ∃ e ∈ extents, boundary e + allocated - 1 ≤ e.stop := by
    unfold boundary
    by_cases hne : slots = []
    · subst hne
      refine ⟨⟨drive.first, drive.last⟩, hperm.mem_iff.2 ?_, ?_⟩
      · rw [drive.free_tight hgpt htight, if_pos rfl, if_pos (by omega)]
        exact List.mem_singleton_self _
      · rw [List.map_nil, total, List.map_nil, List.sum_nil] at hroom
        dsimp only
        omega
    · refine ⟨⟨firstBoundary + total (slots.map Slot.span), drive.last⟩, hperm.mem_iff.2 ?_, ?_⟩
      · rw [drive.free_tight hgpt htight, if_neg hne, if_pos (by omega)]
        exact List.mem_cons_of_mem _ (List.mem_singleton_self _)
      · dsimp only
        omega
  obtain ⟨e, he, hroom'⟩ := hfound
  obtain ⟨range, hrange⟩ := firstFit_isSome hpos (by omega) (h.free_inRange hperm) he hroom'
  refine ⟨range, ?_⟩
  rw [selectFreeExtent, if_neg (by omega), hrange]

/-! ### Any sequence of calls -/

theorem fromTheEnd_le (S : Server Call Call.Resp Table) : fromTheEnd S ≤ S := fun _ _ _ _ h => h.1

section sessions

variable [StdLib] [StdLib.Lawful] {drive : Drive} {rawBytes : ℤ} (hgpt : drive.IsGpt rawBytes)

include hgpt

theorem body_tight (j : Job) (t : Table) (h : Allocated drive t ∧ Tight t) :
    Holds (fromTheEnd (server drive j.requested)) (fun t => Allocated drive t ∧ Tight t) (fun _ _ => True) (j.body drive) t := by
  obtain ⟨halloc, htight⟩ := h
  have hle := fromTheEnd_le (server drive j.requested)
  have hend : ∀ {α : Type} {p : Proc α} {Q : α → Table → Prop},
      Holds (fromTheEnd (server drive j.requested)) (fun t => Allocated drive t ∧ Tight t) Q p t →
      Holds (fromTheEnd (server drive j.requested)) (fun t => Allocated drive t ∧ Tight t) (fun _ _ => True)
        (p >>= fun _ => .ret ()) t :=
    fun h => .bind (h.mono fun _ _ hI _ => .ret hI trivial)
  cases t with
  | none =>
    cases j with
    | setup deviceName =>
      refine hend (setupStorage_none hle deviceName ⟨halloc, htight⟩ ⟨halloc.tail .label, ?_⟩)
      rintro _ ⟨⟩
      trivial
    | create deviceName volumeName sizeBytes =>
      exact hend (createVolume_none hle deviceName volumeName.1 sizeBytes ⟨halloc, htight⟩)
    | delete deviceName volumeName identity => exact hend (deleteVolume_none hle deviceName volumeName identity ⟨halloc, htight⟩)
  | some slots =>
    have hsound := halloc.sound
    cases j with
    | setup deviceName => exact hend (setupStorage_some hle deviceName hsound ⟨halloc, htight⟩)
    | create deviceName volumeName sizeBytes =>
      refine hend (createVolume_holds hle hsound ⟨halloc, htight⟩ deviceName volumeName.2 fun s hs hchosen _ => ?_)
      refine ⟨halloc.tail (.add hs), ?_⟩
      rintro _ ⟨⟩
      exact hchosen.packed hgpt hsound (htight slots rfl) hs
    | delete deviceName volumeName identity =>
      refine hend (deleteVolume_holds hle hsound ⟨halloc, htight⟩ (fun c r hstep => ?_) deviceName)
      refine ⟨halloc.drop_targets volumeName identity, ?_⟩
      rintro _ ⟨⟩
      refine (htight slots rfl).filter fun a ha hpa b hb hpb => ?_
      have hlasts := List.all_eq_true.1 hstep.2 a ha
      have hgone : a ∉ slots.filter fun s => !targets drive volumeName identity s := fun hmem => by simp [hpa] at hmem
      rw [decide_eq_false hgone, Bool.false_or] at hlasts
      exact of_decide_eq_true (List.all_eq_true.1 hlasts b (List.mem_filter.2 ⟨hb, hpb⟩))

/-- **What the accounting admits can be carved**, when what is offered leaves room for what comes before the first boundary
and after the last sector, and as long as only the last partition is ever taken away. -/
theorem admitted_fits {name : Str} {usable size allocated : ℤ} {slots : List Slot} {extents : List Extent}
    (hreserve : ∀ usable, allocatableNamespaceBytes name rawBytes = .ok usable → usable + firstBoundary + 33 * 512 ≤ rawBytes)
    (husable : allocatableNamespaceBytes name rawBytes = .ok usable)
    (hrun : Session (fun j => fromTheEnd (server drive j.requested)) (Job.body drive) none (some slots))
    (hsize : Capacity.roundUp size = .ok allocated) (haccounted : (slots.map Slot.charged).sum + allocated ≤ usable)
    (hextents : extents.Perm (drive.free slots)) : ∃ range, selectFreeExtent extents allocated = .ok range := by
  obtain ⟨halloc, htight⟩ : Allocated drive (some slots) ∧ Tight (some slots) :=
    hrun.inv (I := fun t => Allocated drive t ∧ Tight t) (body_tight hgpt) ⟨.refl, nofun⟩
  have hsound := halloc.sound
  have htotal := hsound.total_eq
  have hlast := hgpt.2.2
  have hroom := hreserve usable husable
  exact hsound.finds hgpt (htight slots rfl) hextents (Capacity.roundUp_pos hsize).1 (by omega)

end sessions

section run

attribute [local instance] asciiLib

/-- A disk with a partition table. -/
def gptDrive (rawBytes : ℤ) (h : rawBytes ≤ maxInt64) : Drive where
  path := "/dev/sda"
  canonical := smallDrive.canonical
  oneLine := smallDrive.oneLine
  first := 34 * 512
  last := rawBytes - 33 * 512 - 1
  first_nonneg := by decide
  last_le := by omega

/-- A disk of 128 MiB. -/
def drive128 : Drive := gptDrive 134217728 (by decide)

/-- A disk of 8275 sectors. -/
def tinyDrive : Drive := gptDrive 4236800 (by decide)

def slotA : Slot := ⟨1, ⟨1048576, 68157439⟩, "a", 67108864⟩
def slotB : Slot := ⟨2, ⟨68157440, 72351743⟩, "b", 4194304⟩

/-- The calls of a run, each with its choices: two volumes, and then without the first. -/
def createA : Job × List Choice :=
  (.create [] firstName 67108864,
    [{ }, { rows := [.free ⟨17408, 134200831⟩] }, { }, { rows := [.slot slotA [] []] }, { }, { }])
def createB : Job × List Choice :=
  (.create [] ⟨str "b", by decide⟩ 4194304,
    [{ }, { rows := [.slot slotA [] [], .free ⟨17408, 1048575⟩, .free ⟨68157440, 134200831⟩] }, { },
      { rows := [.slot slotA [] [], .slot slotB [] []] }, { }, { }])
def deleteA : Job × List Choice :=
  (.delete [] "a" (identityOf drive128 slotA), [{ }, { rows := [.slot slotA [] [], .slot slotB [] []] }, { }, { }])
def setup : Job × List Choice := (.setup [], setupChoices)

/-- The table after some calls whose steps all meet `P`. -/
def play (drive : Drive) (P : Table → Table → Bool) (calls : List (Job × List Choice)) (t : Table) : Table :=
  calls.foldl (fun t call => (exec (fun ch c t => (serve drive call.1.requested ch c t).filter fun a => P t a.2) call.2
    (call.1.body drive) t).2) t

theorem session_play (drive : Drive) (P : Table → Table → Bool) (calls : List (Job × List Choice)) (t : Table) :
    Session (fun j c t r t' => server drive j.requested c t r t' ∧ P t t' = true) (Job.body drive) t (play drive P calls t) := by
  induction calls using List.reverseRecOn with
  | nil => exact .refl t
  | append_singleton calls call ih =>
    rw [play, List.foldl_append]
    refine .step call.1 ih (reaches_of_exec (fun ch c t a h => ?_) call.2 (call.1.body drive) _)
    obtain ⟨hserve, hP⟩ := Option.filter_eq_some_iff.1 h
    exact ⟨⟨ch, hserve⟩, hP⟩

theorem play_holed : play drive128 (fun _ _ => true) [setup, createA, createB, deleteA] none = some [slotB] := by
  decide +kernel

theorem play_tiny : play tinyDrive (fun _ _ => true) [setup] none = some [] := by decide +kernel

theorem play_first : play drive128 lastsFirst [setup, createA] none = some [slotA] := by decide +kernel

/-- With 64 MiB in use, the other 60 of the 124 MiB that are offered are found. -/
theorem admitted_fits_rest :
    allocatableNamespaceBytes "n" 134217728 = .ok 130023424 ∧ Capacity.roundUp 62914560 = .ok 62914560 ∧
      ∃ range, selectFreeExtent (drive128.free [slotA]) 62914560 = .ok range := by
  have hrun := session_play drive128 lastsFirst [setup, createA] none
  rw [play_first] at hrun
  have hgpt : drive128.IsGpt 134217728 := ⟨by decide, rfl, rfl⟩
  have husable : allocatableNamespaceBytes "n" 134217728 = .ok 130023424 := by rfl
  have hsize : Capacity.roundUp 62914560 = .ok 62914560 := by rfl
  have hreserve : ∀ usable, allocatableNamespaceBytes "n" 134217728 = .ok usable →
      usable + firstBoundary + 33 * 512 ≤ 134217728 := by
    intro usable h
    cases husable.symm.trans h
    decide
  exact ⟨husable, hsize, admitted_fits hgpt hreserve husable hrun hsize (by decide) (.refl _)⟩

/-- The smallest disk that is offered has no room for what it offers; and once a volume has been deleted that was not the
last one, what is free is in two pieces. -/
theorem admitted_refused :
    (Reached tinyDrive (some []) ∧ tinyDrive.IsGpt 4236800 ∧ allocatableNamespaceBytes "n" 4236800 = .ok 4194304 ∧
      Capacity.roundUp 4194304 = .ok 4194304 ∧ (([] : List Slot).map Slot.charged).sum + 4194304 ≤ 4194304 ∧
      ∀ range, selectFreeExtent (tinyDrive.free []) 4194304 ≠ .ok range) ∧
    Reached drive128 (some [slotB]) ∧ drive128.IsGpt 134217728 ∧ allocatableNamespaceBytes "n" 134217728 = .ok 130023424 ∧
      Capacity.roundUp 125829120 = .ok 125829120 ∧ ([slotB].map Slot.charged).sum + 125829120 ≤ 130023424 ∧
      ∀ range, selectFreeExtent (drive128.free [slotB]) 125829120 ≠ .ok range := by
  have hreached : ∀ drive calls, Reached drive (play drive (fun _ _ => true) calls none) := by
    intro drive calls
    exact (session_play drive (fun _ _ => true) calls none).mono fun _ _ _ _ _ h => h.1
  have htiny := hreached tinyDrive [setup]
  have hholed := hreached drive128 [setup, createA, createB, deleteA]
  rw [play_tiny] at htiny
  rw [play_holed] at hholed
  have hnone : ∀ {extents : List Extent} {size : ℤ}, (selectFreeExtent extents size).toOption = none →
      ∀ range, selectFreeExtent extents size ≠ .ok range := by
    intro extents size hnone range hrange
    rw [hrange] at hnone
    cases hnone
  exact ⟨⟨htiny, ⟨by decide, rfl, rfl⟩, rfl, rfl, by decide, hnone (by decide +kernel)⟩,
    hholed, ⟨by decide, rfl, rfl⟩, rfl, rfl, by decide, hnone (by decide +kernel)⟩

end run

end Distort.Volumes
