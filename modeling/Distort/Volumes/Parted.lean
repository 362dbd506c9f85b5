import Distort.Volumes.Allocator

/-!
The volume manager on its disk.

* `readPartedTable_holds` — the table that is read is the table that is there;
* `createVolume_holds`, `deleteVolume_holds`, `setupStorage_holds` — what each method does at most, and what it has
  done when it succeeds;
* `parted_refines_allocator` — every sequence of calls, with any failures, is a run of the allocator.
-/

namespace Distort.Volumes

open Go Lib Lib.Prog Agent Agent.Parted Proc

/-! ### The commands -/

theorem args_ne {a b : List Str} (h : a.length ≠ b.length) : a ≠ b := by
  rintro rfl
  exact h rfl

theorem of_print (path : Str) (free : Bool) : Command.of path (printArgs path free) = some (.print free) := by
  unfold Command.of
  cases free with
  | false => rw [if_pos rfl]
  | true => rw [if_neg (args_ne (by simp [printArgs])), if_pos rfl]

theorem of_mklabel (path : Str) : Command.of path (mklabelArgs path) = some .mklabel := by
  unfold Command.of
  rw [if_neg (args_ne (by simp [mklabelArgs, printArgs])), if_neg (args_ne (by simp [mklabelArgs, printArgs])), if_pos rfl]

theorem of_mkpart (path name : Str) {start stop : ℤ} (h0 : 0 ≤ start) (h1 : start ≤ stop) (h2 : stop ≤ maxInt64) :
    Command.of path (mkpartArgs path name start stop) = some (.mkpart name start stop) := by
  unfold Command.of
  rw [if_neg (args_ne (by simp [mkpartArgs, printArgs])), if_neg (args_ne (by simp [mkpartArgs, printArgs])),
    if_neg (args_ne (by simp [mkpartArgs, mklabelArgs]))]
  simp only [mkpartArgs, true_and, if_true, parseByteField_bytes h0 (by omega : start ≤ maxInt64),
    parseByteField_bytes (n := stop) (by omega) h2]
  rfl

theorem of_rm (path : Str) {number : ℤ} (h0 : 1 ≤ number) (h1 : number ≤ maxInt64) :
    Command.of path (rmArgs path number) = some (.rm number) := by
  have hlabel : rmArgs path number ≠ mklabelArgs path := by
    intro h
    simp only [rmArgs, mklabelArgs, List.cons.injEq] at h
    exact absurd h.2.2.1 (by decide)
  unfold Command.of
  rw [if_neg (args_ne (by simp [rmArgs, printArgs])), if_neg (args_ne (by simp [rmArgs, printArgs])), if_neg hlabel]
  simp only [rmArgs, true_and, if_true, parseInt_itoa (n := number) (by omega) h1]
  rfl

variable {args : List Str}

section holds

variable [StdLib] {drive : Drive} {requested : ℤ} {S : Server Call Call.Resp Table} (hS : S ≤ server drive requested)
  {I : Table → Prop}

theorem fated_cases {ch : Choice} {t t' : Table} {served : Except (Str × Err) Str × Table}
    {r : Except (Str × Err) Str} (h : fated ch args t served = some (r, t')) : (r = served.1 ∧ t' = served.2) ∨
      ∃ out err, r = .error (out, err) ∧ mayFail args t out err = true ∧ (t' = t ∨ t' = served.2) := by
  unfold fated at h
  split at h
  · obtain rfl := Option.some.inj h
    exact .inl ⟨rfl, rfl⟩
  · rename_i out err _
    obtain ⟨hmay, h⟩ := Option.ite_none_right_eq_some.1 h
    obtain ⟨rfl, rfl⟩ := Prod.mk.inj (Option.some.inj h)
    exact .inr ⟨out, err, rfl, hmay, .inl rfl⟩
  · rename_i out err _
    obtain ⟨hmay, h⟩ := Option.ite_none_right_eq_some.1 h
    obtain ⟨rfl, rfl⟩ := Prod.mk.inj (Option.some.inj h)
    exact .inr ⟨out, err, rfl, hmay, .inr rfl⟩

/-- How `parted` may answer. -/
theorem parted_cases {cmd : Command} {t t' : Table} {r : Except (Str × Err) Str}
    (hcmd : Command.of drive.path args = some cmd) (h : server drive requested (.disk (.parted args)) t r t') :
    ∃ ch served, perform drive requested ch cmd t = some served ∧
      ((r = served.1 ∧ t' = served.2) ∨
        ∃ out err, r = .error (out, err) ∧ mayFail args t out err = true ∧ (t' = t ∨ t' = served.2)) := by
  obtain ⟨ch, h⟩ := h
  rw [serve, hcmd, Option.bind_some] at h
  obtain ⟨served, hperform, hfated⟩ := Option.bind_eq_some_iff.1 h
  exact ⟨ch, served, hperform, fated_cases hfated⟩

include hS

theorem runParted_holds {cmd : Command} {K : Str → Table → Prop} {t : Table}
    (hcmd : Command.of drive.path args = some cmd) (hI : I t)
    (h : ∀ ch served r, perform drive requested ch cmd t = some served → S (.disk (.parted args)) t r served.2 →
      I served.2 ∧ ∀ out, served.1 = .ok out → K out served.2) : Holds S I (OnOk K) (runParted args) t := by
  refine Holds.try (.op hI fun r t' hr => ?_)
  obtain ⟨ch, served, hperform, ⟨rfl, rfl⟩ | ⟨out, err, rfl, -, ht⟩⟩ := parted_cases hcmd (hS _ _ _ _ hr)
  · obtain ⟨hI', hK⟩ := h ch served _ hperform hr
    exact ⟨hI', fun out hout => .ret hI' (onOk_ok (hK out hout))⟩
  · refine ⟨?_, onOk_error _⟩
    rcases ht with rfl | rfl
    · exact hI
    · exact (h ch served _ hperform hr).1

end holds

/-! ### Reading the table -/

/-- What the code reads of a table. -/
structure Read (drive : Drive) (slots : List Slot) (free : Bool) (table : List Partition × List Extent) : Prop where
  partitions : table.1.Perm (slots.map Slot.partition)
  extents : table.2.Perm (if free then drive.free slots else [])

variable {drive : Drive} {slots : List Slot}

theorem Sound.free (h : Sound drive slots) {e : Extent} (he : e ∈ drive.free slots) :
    drive.first ≤ e.start ∧ e.start ≤ e.stop ∧ e.stop ≤ drive.last ∧ ∀ s ∈ slots, (⟨e.start, e.stop⟩ : Span).Apart s.span := by
  obtain ⟨g, hg, rfl⟩ := List.mem_map.1 he
  obtain ⟨hlo, hle, hhi, hapart⟩ := mem_freeSpans (fun x hx => by
    obtain ⟨s, hs, rfl⟩ := List.mem_map.1 hx
    exact ⟨h.first_le_last hs, (h.within s hs).2⟩) hg
  exact ⟨hlo, hle, hhi, fun s hs => hapart s.span (List.mem_map_of_mem hs)⟩

theorem Sound.free_inRange (h : Sound drive slots) {extents : List Extent} (hperm : extents.Perm (drive.free slots)) :
    ∀ e ∈ extents, InRange e := by
  intro e he
  have hfirst := drive.first_nonneg
  have hlast := drive.last_le
  obtain ⟨hstart, hle, hstop, -⟩ := h.free (hperm.mem_iff.1 he)
  exact ⟨by omega, hle, by omega⟩

variable {free : Bool}

theorem Sound.inRange {rows : List Row} (h : Sound drive slots)
    (hrows : lists rows slots (if free then drive.free slots else []) = true) : ∀ r ∈ rows, r.inRange := by
  simp only [lists, Bool.and_eq_true, List.isPerm_iff] at hrows
  obtain ⟨⟨-, hslots⟩, hfree⟩ := hrows
  have hfirst := drive.first_nonneg
  have hlast := drive.last_le
  rintro (⟨s, fileSystem, flags⟩ | e) hr
  · have hs : s ∈ slots := hslots.mem_iff.1 (List.mem_filterMap.2 ⟨_, hr, rfl⟩)
    have hle := h.first_le_last hs
    have hwithin := h.within s hs
    obtain ⟨hn, hmax⟩ := h.number_range s hs
    exact ⟨hn, hmax, by omega, hle, by omega⟩
  · have he := hfree.mem_iff.1 (List.mem_filterMap.2 ⟨_, hr, rfl⟩ : e ∈ rows.filterMap Row.extent?)
    cases free with
    | false => cases he
    | true =>
      obtain ⟨hstart, hle, hstop, -⟩ := h.free he
      exact ⟨by omega, hle, by omega⟩

section read

variable [StdLib] [StdLib.Lawful] {drive : Drive} {requested : ℤ} {S : Server Call Call.Resp Table}
  (hS : S ≤ server drive requested) {I : Table → Prop}

theorem Sound.parse {slots : List Slot} {rows : List Row} {model : Str} (h : Sound drive slots)
    (hmodel : (10 : UInt8) ∉ model) (hrows : lists rows slots (if free then drive.free slots else []) = true) :
    ∃ table, parsePartedTable (render drive.path model rows) = .ok table ∧ Read drive slots free table := by
  have hrange := h.inRange hrows
  simp only [lists, Bool.and_eq_true, List.isPerm_iff, List.all_eq_true] at hrows
  obtain ⟨⟨hfine, hslots⟩, hfree⟩ := hrows
  exact ⟨_, parse_render drive.canonical drive.oneLine hmodel hfine hrange, hslots.map _, hfree⟩

include hS

/-- **The table that is read is the one that is there**, and it is never taken for none. -/
theorem readPartedTable_holds {slots : List Slot} (h : Sound drive slots) (free : Bool) (hI : I (some slots)) :
    Holds S I (fun r t => t = some slots ∧ (∀ table, r = .ok table → Read drive slots free table) ∧
      ∀ err, r = .error err → isUnrecognizedDiskLabel err = false) (readPartedTable drive.path free) (some slots) := by
  refine .check (.check (.op hI fun r t hr => ?_))
  obtain ⟨ch, served, hperform, hans⟩ := parted_cases (of_print drive.path free) (hS _ _ _ _ hr)
  obtain ⟨hlist, hserved⟩ := Option.ite_none_right_eq_some.1 hperform
  obtain rfl := Option.some.inj hserved
  rcases hans with ⟨rfl, rfl⟩ | ⟨out, err, rfl, hmay, rfl | rfl⟩
  · obtain ⟨table, htable, hread⟩ := h.parse hlist.2 hlist.1
    refine ⟨hI, .ret hI (.ret hI ⟨rfl, ?_, ?_⟩)⟩
    · rw [htable]
      rintro table' ⟨⟩
      exact hread
    · rw [htable]
      nofun
  all_goals
    have hlabelled : isUnrecognizedDiskLabel (.command (printArgs drive.path free) (trimSpace out) err) = false := by
      simpa [mayFail] using hmay
    refine ⟨hI, .ret hI (.ret hI ⟨rfl, nofun, ?_⟩)⟩
    rintro err' ⟨⟩
    exact hlabelled

omit [StdLib.Lawful] in
theorem readPartedTable_none (free : Bool) (hI : I none) :
    Holds S I (fun r t => t = none ∧ ∃ err, r = .error err) (readPartedTable drive.path free) none := by
  refine .check (.check (.op hI fun r t hr => ?_))
  obtain ⟨ch, served, hperform, hans⟩ := parted_cases (of_print drive.path free) (hS _ _ _ _ hr)
  obtain rfl := Option.some.inj hperform
  rcases hans with ⟨rfl, rfl⟩ | ⟨out, err, rfl, -, rfl | rfl⟩
  all_goals exact ⟨hI, .ret hI (.ret hI ⟨rfl, _, rfl⟩)⟩

end read

/-! ### The methods -/

/-- The identity of a partition. -/
def identityOf (drive : Drive) (s : Slot) : VolumeIdentity :=
  { backendVolumeID := partitionPath drive.path s.number, capacityBytes := s.span.length, volumeName := s.name }

/-- Only looks for a device file. -/
def watches : Call → Prop
  | .disk (.stat _) | .proc .select => True
  | _ => False

theorem pollPartition_only (path : Str) (attempts : ℕ) : (pollPartition path attempts).Only watches := by
  induction attempts with
  | zero => trivial
  | succ attempts ih =>
    refine ⟨trivial, fun info => ?_⟩
    cases info with
    | ok _ => trivial
    | error _ =>
      refine ⟨trivial, fun tick => ?_⟩
      cases tick with
      | done err => trivial
      | _ => exact ih

section methods

variable [StdLib] {drive : Drive} {requested : ℤ} {S : Server Call Call.Resp Table} (hS : S ≤ server drive requested)
  {I : Table → Prop} {t : Table}

include hS

theorem waitForPartition_holds (path : Str) (hI : I t) : Holds S I (fun _ t' => t' = t) (waitForPartition path) t := by
  have hstay : Holds S (· = t) (fun _ t' => t' = t) (waitForPartition path) t := by
    refine .of_only (pollPartition_only path _) rfl ?_
    rintro c t1 r t2 hc rfl hstep
    obtain ⟨ch, hserve⟩ := hS _ _ _ _ hstep
    cases c with
    | disk c =>
      cases c with
      | stat path =>
        obtain ⟨-, rfl⟩ := Prod.mk.inj (Option.some.inj hserve)
        rfl
      | _ => cases hc
    | proc c =>
      cases c with
      | select =>
        obtain ⟨-, rfl⟩ := Prod.mk.inj (Option.some.inj hserve)
        rfl
      | _ => cases hc
    | _ => cases hc
  exact hstay.weaken fun t' h => h ▸ hI

theorem identify_holds (volumeName : Str) (number capacityBytes : ℤ) (hI : I t) : Holds S I (OnOk fun id t' => t' = t ∧
      id = { backendVolumeID := partitionPath drive.path number, capacityBytes, volumeName })
      (identify drive.path volumeName number capacityBytes) t := by
  refine .try ((waitForPartition_holds hS _ hI).mono ?_)
  rintro r _ - rfl a -
  exact .ret hI (onOk_ok ⟨rfl, rfl⟩)

theorem withLock_holds {α : Type} {p : Proc α} {Q : α → Table → Prop} (path : Str) (h : Holds S I Q p t) :
    Holds S I Q (withLock path p) t := by
  refine .bind (.op h.inv fun _ t' hlock => ?_)
  obtain ⟨_, hserve⟩ := hS _ _ _ _ hlock
  obtain ⟨-, rfl⟩ := Prod.mk.inj (Option.some.inj hserve)
  refine ⟨h.inv, .bind (h.mono fun r t' hI hr => .bind (.op hI fun _ t'' hunlock => ?_))⟩
  obtain ⟨_, hserve⟩ := hS _ _ _ _ hunlock
  obtain ⟨-, rfl⟩ := Prod.mk.inj (Option.some.inj hserve)
  exact ⟨hI, .ret hI hr⟩

end methods

/-! ### Creation -/

/-- The range of the partition is the first fit in some listing of the free ranges. -/
def Chosen (drive : Drive) (slots : List Slot) (s : Slot) : Prop :=
  ∃ extents, extents.Perm (drive.free slots) ∧ firstFit s.span.length extents = some (s.span.first, s.span.last)

/-- What a successful creation returns. -/
def Created (drive : Drive) (name : Str) (size : ℤ) (id : VolumeIdentity) (t : Table) : Prop :=
  ∃ slots s, t = some slots ∧ s ∈ slots ∧ s.name = name ∧ Capacity.roundUp size = .ok s.span.length ∧ id = identityOf drive s

variable {s : Slot}

theorem Sound.capacity (h : Sound drive slots) (hs : s ∈ slots) :
    partitionCapacity s.partition = .ok s.span.length := by
  have hle := h.first_le_last hs
  have hwithin := h.within s hs
  have hfirst := drive.first_nonneg
  have hpos := Capacity.roundUp_pos (h.size s hs)
  rw [Span.length] at hpos
  have hvalid : ¬(s.partition.start < 0 ∨ s.partition.stop < s.partition.start) := by
    change ¬(s.span.first < 0 ∨ s.span.last < s.span.first)
    omega
  have hvalue : i64 (i64 (s.partition.stop - s.partition.start) + 1) = s.span.length := by
    change i64 (i64 (s.span.last - s.span.first) + 1) = s.span.last - s.span.first + 1
    rw [i64_of_range (n := s.span.last - s.span.first) (by omega) (by omega), i64_of_range (by omega) (by omega)]
  rw [partitionCapacity, if_neg hvalid, hvalue]

theorem Read.named {table : List Partition × List Extent}
    (h : Read drive slots free table) {name : Str} {p : Partition} :
    p ∈ partitionsNamed table.1 name ↔ ∃ s ∈ slots, s.partition = p ∧ s.name = name := by
  simp only [partitionsNamed, List.mem_filter, h.partitions.mem_iff, List.mem_map, decide_eq_true_eq]
  constructor
  · rintro ⟨⟨s, hs, rfl⟩, hname⟩
    exact ⟨s, hs, rfl, hname⟩
  · rintro ⟨s, hs, rfl, hname⟩
    exact ⟨⟨s, hs, rfl⟩, hname⟩

theorem Sound.fits {table : List Partition × List Extent} (h : Sound drive slots)
    (hread : Read drive slots true table) {name : Str} (hname : name ∉ slots.map Slot.name) (htext : fieldText name = true)
    {size allocated start stop : ℤ} (hsize : Capacity.roundUp size = .ok allocated)
    (hfit : firstFit allocated table.2 = some (start, stop)) :
    Fits drive slots ⟨lowestUnused (slots.map Slot.number), ⟨start, stop⟩, name, size⟩ ∧
      Chosen drive slots ⟨lowestUnused (slots.map Slot.number), ⟨start, stop⟩, name, size⟩ := by
  have hextents : table.2.Perm (drive.free slots) := hread.extents
  obtain ⟨hpos, hmax⟩ := Capacity.roundUp_pos hsize
  obtain ⟨rfl, e, he, hstart, hstop⟩ := firstFit_spec hpos hmax (h.free_inRange hextents) hfit
  rw [boundary] at hstart
  obtain ⟨hlo, -, hhi, hapart⟩ := h.free (hextents.mem_iff.1 he)
  have hlength : (⟨start, start + allocated - 1⟩ : Span).length = allocated := by
    change start + allocated - 1 - start + 1 = allocated
    omega
  refine ⟨⟨rfl, hname, htext, ?_, ⟨by dsimp only; omega, by dsimp only; omega⟩, fun s hs => ?_⟩, table.2, hextents, ?_⟩
  · rw [hlength]
    exact hsize
  · exact ((hapart s hs).mono (by dsimp only; omega) hstop).symm
  · rw [hlength]
    exact hfit

section create

variable [StdLib] [StdLib.Lawful] {drive : Drive} {size : ℤ} {S : Server Call Call.Resp Table}
  (hS : S ≤ server drive size) {I : Table → Prop} {slots : List Slot} {table : List Partition × List Extent}
  {name : Str} {allocated : ℤ} (h : Sound drive slots) (hI : I (some slots)) (hsize : Capacity.roundUp size = .ok allocated)

include hS h hI hsize

omit [StdLib.Lawful] in
theorem reuse_holds (hread : Read drive slots free table) {existing : Partition}
    (hnamed : existing ∈ partitionsNamed table.1 name) :
    Holds S I (OnOk (Created drive name size)) (reuse drive.path name allocated existing) (some slots) := by
  obtain ⟨s, hs, rfl, rfl⟩ := hread.named.1 hnamed
  unfold reuse
  rw [h.capacity hs]
  dsimp only
  split
  · exact .ret hI (onOk_error _)
  rename_i heq
  refine (identify_holds hS s.name s.number s.span.length hI).mono ?_
  rintro r _ - hr id rfl
  obtain ⟨rfl, rfl⟩ := hr id rfl
  exact ⟨slots, s, rfl, hs, rfl, by rw [hsize, not_not.1 heq], rfl⟩

omit [StdLib.Lawful] in
theorem verify_holds (hread : Read drive slots free table) (number start stop : ℤ) :
    Holds S I (OnOk (Created drive name size))
      (verify drive.path name allocated number start stop (partitionsNamed table.1 name)) (some slots) := by
  unfold verify
  split
  · rename_i p hcreated
    obtain ⟨s, hs, rfl, rfl⟩ := hread.named.1 (hcreated ▸ List.mem_singleton_self p)
    split
    · exact .ret hI (onOk_error _)
    rename_i hnumber
    split
    · exact .ret hI (onOk_error _)
    rw [h.capacity hs]
    dsimp only
    split
    · exact .ret hI (onOk_error _)
    rename_i heq
    refine (identify_holds hS s.name number s.span.length hI).mono ?_
    rintro r _ - hr id rfl
    obtain ⟨rfl, rfl⟩ := hr id rfl
    exact ⟨slots, s, rfl, hs, rfl, by rw [hsize, not_not.1 heq], by rw [← not_not.1 hnumber]; rfl⟩
  · exact .ret hI (onOk_error _)

theorem carve_holds (hread : Read drive slots true table) (hname : name ∉ slots.map Slot.name) (htext : fieldText name = true)
    (hadd : ∀ s, Fits drive slots s → Chosen drive slots s → s.name = name → I (some (slots ++ [s]))) :
    Holds S I (OnOk (Created drive name size)) (carve drive.path name allocated table.1 table.2) (some slots) := by
  unfold carve selectFreeExtent
  have hpos := (Capacity.roundUp_pos hsize).1
  rw [if_neg (not_le.2 hpos)]
  cases hfit : firstFit allocated table.2 with
  | none => exact .ret hI (onOk_error _)
  | some range =>
    obtain ⟨start, stop⟩ := range
    obtain ⟨hfits, hchosen⟩ := h.fits hread hname htext hsize hfit
    have hafter := hadd _ hfits hchosen rfl
    have hsound := h.add hfits
    have hwithin : drive.first ≤ start ∧ stop ≤ drive.last := hfits.within
    have hle : start ≤ stop := hsound.first_le_last (List.mem_append_right _ (List.mem_singleton_self _))
    have hfirst := drive.first_nonneg
    have hlast := drive.last_le
    have hcmd := of_mkpart drive.path name (show 0 ≤ start by omega) hle (by omega)
    refine .try (runParted_holds hS hcmd hI fun ch served _ hserved _ => ?_)
    obtain rfl := Option.some.inj hserved
    refine ⟨hafter, fun out _ => ?_⟩
    refine .try ((readPartedTable_holds hS hsound false hafter).mono ?_)
    rintro r _ - ⟨rfl, hread', -⟩ table' rfl
    exact verify_holds hS hsound hafter hsize (hread' table' rfl) _ _ _

omit hsize in
/-- **Creation** adds at most one partition, one that fits, and only where the name is new. -/
theorem createVolume_holds (deviceName : Str) (htext : fieldText name = true)
    (hadd : ∀ s, Fits drive slots s → Chosen drive slots s → s.name = name → I (some (slots ++ [s]))) :
    Holds S I (OnOk (Created drive name size)) (createVolume drive.path deviceName name size) (some slots) := by
  refine withLock_holds hS _ ?_
  rcases hsize : Capacity.roundUp size with err | allocated
  · exact .ret hI (onOk_error _)
  refine .try ((readPartedTable_holds hS h true hI).mono ?_)
  rintro r _ - ⟨rfl, hread, -⟩ table rfl
  have hread := hread table rfl
  split
  · rename_i hnone
    refine carve_holds hS h hI hsize hread (fun hname => ?_) htext hadd
    obtain ⟨s, hs, hname⟩ := List.mem_map.1 hname
    have hmem : s.partition ∈ partitionsNamed table.1 name := hread.named.2 ⟨s, hs, rfl, hname⟩
    rw [hnone] at hmem
    cases hmem
  · rename_i existing hone
    exact reuse_holds hS h hI hsize hread (hone ▸ List.mem_singleton_self _)
  · exact .ret hI (onOk_error _)

end create

section setup

variable [StdLib] {drive : Drive} {requested : ℤ} {S : Server Call Call.Resp Table} (hS : S ≤ server drive requested)
  {I : Table → Prop}

include hS

theorem createVolume_none (deviceName name : Str) (size : ℤ) (hI : I none) :
    Holds S I (OnOk fun _ _ => False) (createVolume drive.path deviceName name size) none := by
  refine withLock_holds hS _ ?_
  rcases hsize : Capacity.roundUp size with err | allocated
  · exact .ret hI (onOk_error _)
  refine .try ((readPartedTable_none hS true hI).mono ?_)
  rintro _ _ - ⟨-, err, rfl⟩
  exact onOk_error _

theorem setupStorage_some [StdLib.Lawful] {slots : List Slot} (deviceName : Str) (h : Sound drive slots) (hI : I (some slots)) :
    Holds S I (fun _ t => t = some slots) (setupStorage drive.path deviceName) (some slots) := by
  refine withLock_holds hS _ (.bind ((readPartedTable_holds hS h false hI).mono ?_))
  rintro r _ - ⟨rfl, -, herr⟩
  cases r with
  | ok table => exact .ret hI rfl
  | error err =>
    dsimp only
    rw [herr err rfl]
    exact .ret hI rfl

theorem setupStorage_none [StdLib.Lawful] (deviceName : Str) (hI : I none) (hlabel : I (some [])) :
    Holds S I (OnOk fun _ t => t = some []) (setupStorage drive.path deviceName) none := by
  refine withLock_holds hS _ (.bind ((readPartedTable_none hS false hI).mono ?_))
  rintro _ _ - ⟨rfl, err, rfl⟩
  dsimp only
  split
  · exact .ret hI (onOk_error _)
  refine .try (.op hI fun r t hr => ?_)
  obtain ⟨ch, hserve⟩ := hS _ _ _ _ hr
  -- the signatures are gone before and after
  have hwiped : t = none := by
    rw [serve, if_pos rfl] at hserve
    rcases fated_cases hserve with ⟨-, rfl⟩ | ⟨_, _, -, -, rfl | rfl⟩ <;> rfl
  subst hwiped
  refine ⟨hI, fun _ _ => .try (runParted_holds hS (of_mklabel drive.path) hI ?_)⟩
  intro ch served _ hserved _
  obtain rfl := Option.some.inj hserved
  refine ⟨hlabel, fun out _ => .try ((readPartedTable_holds hS (.nil drive) false hlabel).mono ?_)⟩
  rintro r _ - ⟨rfl, -, -⟩ table rfl
  exact .ret hlabel (onOk_ok rfl)

end setup

/-! ### Deletion -/

/-- The partition that a deletion is for. -/
def targets (drive : Drive) (name : Str) (identity : VolumeIdentity) (s : Slot) : Bool :=
  s.name = name ∧ (identity.backendVolumeID ≠ [] →
    (partitionNumberFromPath drive.path identity.backendVolumeID).toOption = some s.number)

theorem Sound.eq_of_number (h : Sound drive slots) {s s' : Slot} (hs : s ∈ slots)
    (hs' : s' ∈ slots) (heq : s.number = s'.number) : s = s' :=
  List.inj_on_of_nodup_map h.numbers hs hs' heq

theorem Sound.eq_of_name (h : Sound drive slots) {s s' : Slot} (hs : s ∈ slots)
    (hs' : s' ∈ slots) (heq : s.name = s'.name) : s = s' :=
  List.inj_on_of_nodup_map h.names hs hs' heq

theorem Sound.filter_number (h : Sound drive slots) {name : Str}
    {identity : VolumeIdentity} (hs : s ∈ slots) (htarget : targets drive name identity s = true) :
    (slots.filter fun x => x.number ≠ s.number) = slots.filter fun x => !targets drive name identity x := by
  refine List.filter_congr fun x hx => ?_
  by_cases hxs : x = s
  · subst hxs
    simp [htarget]
  have hnumber : x.number ≠ s.number := fun heq => hxs (h.eq_of_number hx hs heq)
  have hother : targets drive name identity x = false := by
    refine Bool.eq_false_iff.2 fun hx' => hxs (h.eq_of_name hx hs ?_)
    simp only [targets, decide_eq_true_eq] at htarget hx'
    exact hx'.1.trans htarget.1.symm
  simp [hnumber, hother]

theorem partitionNumberFromPath_path (drive : Drive) {number : ℤ} (h0 : 1 ≤ number) (h1 : number ≤ maxInt64) :
    partitionNumberFromPath drive.path (partitionPath drive.path number) = .ok number := by
  have hcut : cutPrefix (partitionPath drive.path number) (drive.path ++ str "p") = (itoa number, true) := by
    have hprefix : hasPrefix (partitionPath drive.path number) (drive.path ++ str "p") = true :=
      List.isPrefixOf_iff_prefix.2 (List.prefix_append _ _)
    rw [cutPrefix, if_pos hprefix, partitionPath, List.drop_left]
  have hclean : clean (partitionPath drive.path number) = partitionPath drive.path number := by
    rw [partitionPath, List.append_assoc]
    have hslash : (47 : UInt8) ∉ str "p" ++ itoa number := by
      intro hmem
      rcases List.mem_append.1 hmem with hmem | hmem
      · exact absurd hmem (by decide)
      · exact (digit_ne (itoa_digits (by omega) _ hmem)).2.2.1 rfl
    exact clean_canonical (drive.canonical.append hslash (b := 112) (List.mem_append_left _ (by decide)) (by decide))
  rw [partitionNumberFromPath, hcut]
  simp only [parseInt_itoa (n := number) (by omega) h1, hclean]
  rw [if_neg (by simp; omega)]

theorem targets_identityOf (drive : Drive) (h0 : 1 ≤ s.number) (h1 : s.number ≤ maxInt64) :
    targets drive s.name (identityOf drive s) s = true := by
  simp [targets, identityOf, partitionNumberFromPath_path drive h0 h1, Except.toOption]

section delete

variable [StdLib] {drive : Drive} {requested : ℤ} {S : Server Call Call.Resp Table}
  (hS : S ≤ server drive requested) {I : Table → Prop}

include hS

theorem deleteVolume_none (deviceName name : Str) (identity : VolumeIdentity) (hI : I none) :
    Holds S I (OnOk fun _ _ => False) (deleteVolume drive.path deviceName name identity) none := by
  refine withLock_holds hS _ (.try ((readPartedTable_none hS false hI).mono ?_))
  rintro _ _ - ⟨-, err, rfl⟩
  exact onOk_error _

variable {slots : List Slot} (h : Sound drive slots) {name : Str} {identity : VolumeIdentity}
  (hI : I (some slots)) (hdrop : ∀ c r, S c (some slots) r (some (slots.filter fun s => !targets drive name identity s)) →
    I (some (slots.filter fun s => !targets drive name identity s)))

include h hI hdrop

theorem removePartition_holds {s : Slot} (hs : s ∈ slots) (htarget : targets drive name identity s = true) :
    Holds S I (OnOk fun _ t => t = some (slots.filter fun s => !targets drive name identity s))
      (removePartition drive.path s.partition) (some slots) := by
  obtain ⟨hn, hmax⟩ := h.number_range s hs
  refine .try (runParted_holds hS (of_rm drive.path hn hmax) hI fun ch served r hserved hstep => ?_)
  have hperform : perform drive requested ch (.rm s.number) (some slots) =
      some (.ok [], some (slots.filter fun s => !targets drive name identity s)) := by
    rw [perform, if_pos (List.mem_map_of_mem hs), h.filter_number hs htarget]
  obtain rfl := Option.some.inj (hperform.symm.trans hserved)
  exact ⟨hdrop _ r hstep, fun _ _ => .ret (hdrop _ r hstep) (onOk_ok rfl)⟩

/-- **Deletion** takes away at most the partition that it is for, and exactly that one when it succeeds. -/
theorem deleteVolume_holds [StdLib.Lawful] (deviceName : Str) :
    Holds S I (OnOk fun _ t => t = some (slots.filter fun s => !targets drive name identity s))
      (deleteVolume drive.path deviceName name identity) (some slots) := by
  refine withLock_holds hS _ (.try ((readPartedTable_holds hS h false hI).mono ?_))
  rintro r _ - ⟨rfl, hread, -⟩ table rfl
  have hread := hread table rfl
  -- without a target, nothing is taken away
  have hkeep : (∀ s ∈ slots, targets drive name identity s = false) →
      slots = slots.filter fun s => !targets drive name identity s := by
    intro hnone
    refine (List.filter_eq_self.2 fun s hs => ?_).symm
    rw [hnone s hs]
    rfl
  split
  · rename_i hid
    split
    · exact .ret hI (onOk_error _)
    rename_i number hnumber
    split
    · rename_i hfind
      refine .ret hI (onOk_ok (congrArg some (hkeep fun s hs => ?_)))
      have := List.find?_eq_none.1 hfind s.partition (hread.partitions.mem_iff.2 (List.mem_map_of_mem hs))
      refine Bool.eq_false_iff.2 fun htarget => this ?_
      simp only [targets, decide_eq_true_eq, hnumber] at htarget
      exact decide_eq_true (Option.some.inj (htarget.2 hid)).symm
    · rename_i target hfind
      split
      · exact .ret hI (onOk_error _)
      rename_i hname
      obtain ⟨s, hs, rfl⟩ := List.mem_map.1 (hread.partitions.mem_iff.1 (List.mem_of_find?_eq_some hfind))
      have hfound : s.partition.number = number := by simpa using List.find?_some hfind
      refine removePartition_holds hS h hI hdrop hs (decide_eq_true ⟨not_not.1 hname, fun _ => ?_⟩)
      rw [hnumber, ← hfound]
      rfl
  · rename_i hid
    split
    · rename_i hnone
      refine .ret hI (onOk_ok (congrArg some (hkeep fun s hs => Bool.eq_false_iff.2 fun htarget => ?_)))
      have hmem : s.partition ∈ partitionsNamed table.1 name :=
        hread.named.2 ⟨s, hs, rfl, (of_decide_eq_true htarget).1⟩
      rw [hnone] at hmem
      cases hmem
    · rename_i target hone
      obtain ⟨s, hs, rfl, hname⟩ := hread.named.1 (hone ▸ List.mem_singleton_self target)
      exact removePartition_holds hS h hI hdrop hs (decide_eq_true ⟨hname, fun hid' => absurd hid' hid⟩)
    · exact .ret hI (onOk_error _)

end delete

/-- The table without the partition that has the name and the number of `s`. -/
def without (slots : List Slot) (s : Slot) : List Slot := slots.filter fun x => ¬(x.name = s.name ∧ x.number = s.number)

theorem Sound.without_eq (h : Sound drive slots) (hs : s ∈ slots) : without slots s = slots.filter fun x => x ≠ s := by
  refine List.filter_congr fun x hx => ?_
  by_cases hxs : x = s
  · simp [hxs]
  · have hname : x.name ≠ s.name := fun heq => hxs (h.eq_of_name hx hs heq)
    simp [hxs, hname]

theorem Sound.without_number (h : Sound drive slots) (hs : s ∈ slots) :
    (slots.filter fun x => x.number ≠ s.number) = without slots s := by
  refine List.filter_congr fun x hx => ?_
  by_cases hnumber : x.number = s.number
  · simp [h.eq_of_number hx hs hnumber]
  · simp [hnumber]

/-! ### When nothing fails -/

/-- Choices without a failure. -/
structure Calm (drive : Drive) (choose : Call → Table → Choice) : Prop where
  outcome : ∀ c t, (choose c t).outcome = .ok
  seen : ∀ c t, (choose c t).seen = .ok ()
  model : ∀ c t, (10 : UInt8) ∉ (choose c t).model
  rows : ∀ free slots, Sound drive slots →
    lists (choose (.disk (.parted (printArgs drive.path free))) (some slots)).rows slots
      (if free then drive.free slots else []) = true

/-- The table is printed in its own order. -/
def plainly (drive : Drive) : Call → Table → Choice
  | .disk (.parted args), some slots =>
    { rows := slots.map (Row.slot · [] []) ++ if args = printArgs drive.path true then (drive.free slots).map .free else [] }
  | _, _ => { }

theorem filterMap_slots (slots : List Slot) (extents : List Extent) :
    ((slots.map (Row.slot · [] []) ++ extents.map Row.free).filterMap Row.slot? = slots) ∧
      (slots.map (Row.slot · [] []) ++ extents.map Row.free).filterMap Row.extent? = extents := by
  have hslots : ∀ l : List Slot, (l.map (Row.slot · [] [])).filterMap Row.slot? = l := fun l => by
    rw [List.filterMap_map]
    exact List.filterMap_some
  have hfree : ∀ l : List Extent, (l.map Row.free).filterMap Row.extent? = l := fun l => by
    rw [List.filterMap_map]
    exact List.filterMap_some
  have hnone : ∀ l : List Extent, (l.map Row.free).filterMap Row.slot? = [] := fun l => by simp [Row.slot?]
  have hnone' : ∀ l : List Slot, (l.map (Row.slot · [] [])).filterMap Row.extent? = [] := fun l => by simp [Row.extent?]
  rw [List.filterMap_append, List.filterMap_append, hslots, hfree, hnone, hnone', List.append_nil, List.nil_append]
  exact ⟨rfl, rfl⟩

theorem calm_plainly (drive : Drive) : Calm drive (plainly drive) where
  outcome c t := by
    unfold plainly
    split <;> rfl
  seen c t := by
    unfold plainly
    split <;> rfl
  model c t := by
    unfold plainly
    split <;> exact List.not_mem_nil
  rows free slots h := by
    have hrows : (plainly drive (.disk (.parted (printArgs drive.path free))) (some slots)).rows =
        slots.map (Row.slot · [] []) ++ (if free then drive.free slots else []).map Row.free := by
      cases free with
      | false => rw [plainly, if_neg (args_ne (by simp [printArgs]))]; rfl
      | true => rw [plainly, if_pos rfl]; rfl
    obtain ⟨hslots, hextents⟩ := filterMap_slots slots (if free then drive.free slots else [])
    rw [hrows, lists, hslots, hextents]
    simp only [Bool.and_eq_true, List.all_eq_true, List.isPerm_iff]
    refine ⟨⟨fun r hr => ?_, .refl _⟩, .refl _⟩
    rcases List.mem_append.1 hr with hr | hr
    · obtain ⟨s, hs, rfl⟩ := List.mem_map.1 hr
      have hempty : fieldText [] = true := rfl
      simp [Row.fine, h.text s hs, hempty]
    · obtain ⟨e, -, rfl⟩ := List.mem_map.1 hr
      rfl

/-- The server that makes these choices. -/
def calmly [StdLib] (drive : Drive) (requested : ℤ) (choose : Call → Table → Choice) (c : Call) (t : Table) :
    Option (c.Resp × Table) :=
  serve drive requested (choose c t) c t

section calm

variable [StdLib] {drive : Drive} {requested : ℤ} {choose : Call → Table → Choice} (hcalm : Calm drive choose) {slots : List Slot}

include hcalm

theorem runParted_yields {cmd : Command} {out : Str} {t t' : Table} (hcmd : Command.of drive.path args = some cmd)
    (hperform : perform drive requested (choose (.disk (.parted args)) t) cmd t = some (.ok out, t')) :
    Yields (calmly drive requested choose) (fun r u => r = .ok out ∧ u = t') (runParted args) t := by
  refine .check (Yields.op (Call.disk (.parted args)) ?_ ⟨out, rfl, .ret ⟨rfl, rfl⟩⟩)
  rw [calmly, serve, hcmd, Option.bind_some, hperform, Option.bind_some, fated, hcalm.outcome]

omit hcalm in
theorem withLock_yields {α : Type} {p : Proc α} {Q : α → Table → Prop} {t : Table} (path : Str)
    (h : Yields (calmly drive requested choose) Q p t) : Yields (calmly drive requested choose) Q (withLock path p) t := by
  refine .bind (Yields.op (Call.proc (.lock path)) rfl (.bind (h.mono fun r t' hr => ?_)))
  exact .bind (Yields.op (Call.proc (.unlock path)) rfl (.ret hr))

theorem identify_yields (volumeName : Str) (number capacityBytes : ℤ) (t : Table) :
    Yields (calmly drive requested choose)
      (fun r t' => r = .ok { backendVolumeID := partitionPath drive.path number, capacityBytes, volumeName } ∧ t' = t)
      (identify drive.path volumeName number capacityBytes) t := by
  have hstat : calmly drive requested choose (.disk (.stat (partitionPath drive.path number))) t = some (.ok (), t) := by
    rw [calmly, serve, hcalm.seen]
  exact .check (.bind (Yields.op _ hstat (.ret ⟨(), rfl, .ret ⟨rfl, rfl⟩⟩)))

variable [StdLib.Lawful] (h : Sound drive slots)

include h

theorem readPartedTable_yields (free : Bool) :
    Yields (calmly drive requested choose) (fun r t => ∃ table, r = .ok table ∧ t = some slots ∧ Read drive slots free table)
      (readPartedTable drive.path free) (some slots) := by
  obtain ⟨table, htable, hread⟩ := h.parse
    (hcalm.model (.disk (.parted (printArgs drive.path free))) (some slots)) (hcalm.rows free slots h)
  have hprint : perform drive requested (choose (.disk (.parted (printArgs drive.path free))) (some slots)) (.print free)
      (some slots) = some (.ok (render drive.path _ _), some slots) :=
    if_pos ⟨hcalm.rows free slots h, hcalm.model _ _⟩
  refine .check ((runParted_yields hcalm (of_print drive.path free) hprint).mono ?_)
  rintro r t ⟨rfl, rfl⟩
  refine ⟨_, rfl, .ret ⟨table, ?_, rfl, hread⟩⟩
  rw [htable]
  rfl

variable {s : Slot}

variable {table : List Partition × List Extent}

omit hcalm [StdLib.Lawful] [StdLib] in
theorem Sound.named (hread : Read drive slots free table)
    (hs : s ∈ slots) : partitionsNamed table.1 s.name = [s.partition] := by
  have hslots : slots.filter (fun x => x.name = s.name) = [s] := by
    have hsame : slots.filter (fun x => x.name = s.name) = slots.filter fun x => x == s := by
      refine List.filter_congr fun x hx => ?_
      by_cases hxs : x = s
      · simp [hxs]
      · have hname : x.name ≠ s.name := fun heq => hxs (h.eq_of_name hx hs heq)
        simp [hxs, hname]
    rw [hsame, List.filter_beq, List.count_eq_one_of_mem h.names.of_map hs, List.replicate_one]
  have hperm : (partitionsNamed table.1 s.name).Perm ((slots.map Slot.partition).filter fun p => p.name = s.name) :=
    hread.partitions.filter _
  rw [List.filter_map] at hperm
  exact List.perm_singleton.1 (hperm.trans (by rw [show (fun p : Partition => decide (p.name = s.name)) ∘ Slot.partition =
    fun x => decide (x.name = s.name) from rfl, hslots]; rfl))

theorem createVolume_yields (hs : s ∈ slots) (deviceName : Str) {size : ℤ}
    (hsize : Capacity.roundUp size = .ok s.span.length) :
    Yields (calmly drive requested choose) (fun r t => r = .ok (identityOf drive s) ∧ t = some slots)
      (createVolume drive.path deviceName s.name size) (some slots) := by
  refine withLock_yields _ ?_
  rw [hsize]
  refine .check ((readPartedTable_yields hcalm h true).mono ?_)
  rintro r t ⟨table, rfl, rfl, hread⟩
  refine ⟨table, rfl, ?_⟩
  rw [h.named hread hs]
  dsimp only
  rw [reuse, h.capacity hs]
  dsimp only
  rw [if_neg (not_not.2 rfl)]
  exact identify_yields hcalm _ _ _ _

omit [StdLib.Lawful] in
theorem removePartition_yields (hs : s ∈ slots) :
    Yields (calmly drive requested choose) (fun r t => r = .ok () ∧ t = some (without slots s))
      (removePartition drive.path s.partition) (some slots) := by
  obtain ⟨hn, hmax⟩ := h.number_range s hs
  have hrm : perform drive requested (choose (.disk (.parted (rmArgs drive.path s.number))) (some slots)) (.rm s.number)
      (some slots) = some (.ok [], some (without slots s)) := by
    rw [perform, if_pos (List.mem_map_of_mem hs), h.without_number hs]
  refine .check ((runParted_yields hcalm (of_rm drive.path hn hmax) hrm).mono ?_)
  rintro r t ⟨rfl, rfl⟩
  exact ⟨_, rfl, .ret ⟨rfl, rfl⟩⟩

omit hcalm [StdLib.Lawful] [StdLib] in
theorem Sound.numbered (hread : Read drive slots free table)
    (hs : s ∈ slots) : table.1.find? (fun p => p.number = s.number) = some s.partition := by
  have hsome : (table.1.find? fun p => p.number = s.number).isSome = true :=
    List.find?_isSome.2 ⟨s.partition, hread.partitions.mem_iff.2 (List.mem_map_of_mem hs), decide_eq_true rfl⟩
  obtain ⟨p, hp⟩ := Option.isSome_iff_exists.1 hsome
  obtain ⟨s', hs', rfl⟩ := List.mem_map.1 (hread.partitions.mem_iff.1 (List.mem_of_find?_eq_some hp))
  have hnumber : s'.partition.number = s.number := by simpa using List.find?_some hp
  rw [hp, h.eq_of_number hs' hs hnumber]

/-- The partition that an identity stands for, by its path or by its name alone. -/
theorem deleteVolume_yields (hs : s ∈ slots) (deviceName : Str) {identity : VolumeIdentity}
    (htarget : targets drive s.name identity s = true) :
    Yields (calmly drive requested choose) (fun r t => r = .ok () ∧ t = some (without slots s))
      (deleteVolume drive.path deviceName s.name identity) (some slots) := by
  refine withLock_yields _ (.check ((readPartedTable_yields hcalm h false).mono ?_))
  rintro r t ⟨table, rfl, rfl, hread⟩
  refine ⟨table, rfl, ?_⟩
  by_cases hid : identity.backendVolumeID ≠ []
  · have hnumber : partitionNumberFromPath drive.path identity.backendVolumeID = .ok s.number := by
      have hsome := (of_decide_eq_true htarget).2 hid
      cases hpath : partitionNumberFromPath drive.path identity.backendVolumeID with
      | error err => simp [hpath, Except.toOption] at hsome
      | ok number => simpa [hpath, Except.toOption] using hsome
    rw [if_pos hid, hnumber]
    dsimp only
    have hname : ¬s.partition.name ≠ s.name := not_not.2 rfl
    rw [h.numbered hread hs]
    dsimp only
    rw [if_neg hname]
    exact removePartition_yields hcalm h hs
  · rw [if_neg hid, h.named hread hs]
    exact removePartition_yields hcalm h hs

end calm

/-! ### Any sequence of calls -/

/-- A call of the volume manager; `create` takes a name that a table can hold. -/
inductive Job where
  | setup (deviceName : Str)
  | create (deviceName : Str) (volumeName : { name : Str // fieldText name = true }) (sizeBytes : ℤ)
  | delete (deviceName volumeName : Str) (identity : VolumeIdentity)

/-- The size that is asked for. -/
def Job.requested : Job → ℤ
  | .create _ _ sizeBytes => sizeBytes
  | _ => 0

theorem filter_targets (drive : Drive) (slots : List Slot) (h0 : 1 ≤ s.number) (h1 : s.number ≤ maxInt64) :
    (slots.filter fun x => !targets drive s.name (identityOf drive s) x) = without slots s := by
  have hid : (identityOf drive s).backendVolumeID ≠ [] :=
    List.append_ne_nil_of_right_ne_nil _ (itoa_ne_nil' (by omega))
  have hnumber : partitionNumberFromPath drive.path (identityOf drive s).backendVolumeID = .ok s.number :=
    partitionNumberFromPath_path drive h0 h1
  refine List.filter_congr fun x _ => ?_
  simp [targets, hid, hnumber, Except.toOption, eq_comm]

theorem Allocated.drop_targets (h : Allocated drive (some slots)) (name : Str)
    (identity : VolumeIdentity) : Allocated drive (some (slots.filter fun s => !targets drive name identity s)) := by
  by_cases htarget : ∃ s ∈ slots, targets drive name identity s = true
  · obtain ⟨s, hs, htarget⟩ := htarget
    rw [← h.sound.filter_number hs htarget]
    exact h.tail (.drop s.number)
  · have hkeep : (slots.filter fun s => !targets drive name identity s) = slots :=
      List.filter_eq_self.2 fun s hs => by simpa using fun ht => htarget ⟨s, hs, ht⟩
    rw [hkeep]
    exact h

section sessions

variable [StdLib]

def Job.body (drive : Drive) : Job → Proc Unit
  | .setup deviceName => setupStorage drive.path deviceName >>= fun _ => .ret ()
  | .create deviceName volumeName sizeBytes =>
    createVolume drive.path deviceName volumeName.1 sizeBytes >>= fun _ => .ret ()
  | .delete deviceName volumeName identity =>
    deleteVolume drive.path deviceName volumeName identity >>= fun _ => .ret ()

/-- What calls of the volume manager, one after the other, may make of a blank disk; a call may be cut off anywhere. -/
def Reached (drive : Drive) (table : Table) : Prop :=
  Session (fun j => server drive j.requested) (Job.body drive) none table

variable [StdLib.Lawful]

/-- **Every call is a run of the allocator.** -/
theorem body_holds (drive : Drive) (j : Job) (t : Table) (h : Allocated drive t) :
    Holds (server drive j.requested) (Allocated drive) (fun _ _ => True) (j.body drive) t := by
  have hend : ∀ {α : Type} {p : Proc α} {Q : α → Table → Prop}, Holds (server drive j.requested) (Allocated drive) Q p t →
      Holds (server drive j.requested) (Allocated drive) (fun _ _ => True) (p >>= fun _ => .ret ()) t :=
    fun h => .bind (h.mono fun _ _ hI _ => .ret hI trivial)
  cases j with
  | setup deviceName =>
    cases t with
    | none => exact hend (setupStorage_none le_rfl deviceName h (h.tail .label))
    | some slots => exact hend (setupStorage_some le_rfl deviceName h.sound h)
  | create deviceName volumeName sizeBytes =>
    cases t with
    | none => exact hend (createVolume_none le_rfl deviceName volumeName.1 sizeBytes h)
    | some slots => exact hend (createVolume_holds le_rfl h.sound h deviceName volumeName.2 fun s hs _ _ => h.tail (.add hs))
  | delete deviceName volumeName identity =>
    cases t with
    | none => exact hend (deleteVolume_none le_rfl deviceName volumeName identity h)
    | some slots => exact hend (deleteVolume_holds le_rfl h.sound h (fun _ _ _ => h.drop_targets _ _) deviceName)

/-- **The volume manager refines the allocator.**  Whatever calls were made and whatever failed, the table is one of the
allocator.  From there,
* labelling a disk that has a table changes nothing at any moment;
* a successful creation returns the identity of the partition with the name;
* a repeated creation changes nothing at any moment, returns that identity if anything, and returns it when nothing fails;
* a deletion with the identity of a partition takes away that one at most, and has done so when it succeeds. -/
theorem parted_refines_allocator (drive : Drive) {table : Table} (h : Reached drive table) :
    Allocated drive table ∧ ∀ slots, table = some slots → Sound drive slots ∧
      (∀ deviceName, Holds (server drive 0) (· = some slots) (fun _ _ => True) (setupStorage drive.path deviceName) (some slots)) ∧
      (∀ deviceName name size, fieldText name = true → Holds (server drive size) (Allocated drive) (OnOk (Created drive name size))
        (createVolume drive.path deviceName name size) (some slots)) ∧
      (∀ s ∈ slots, ∀ deviceName size, Capacity.roundUp size = .ok s.span.length →
        Holds (server drive size) (· = some slots) (OnOk fun id _ => id = identityOf drive s)
          (createVolume drive.path deviceName s.name size) (some slots) ∧
        ∀ choose, Calm drive choose →
          run (calmly drive size choose) (createVolume drive.path deviceName s.name size) (some slots) =
            some (.ok (identityOf drive s), some slots)) ∧
      (∀ s deviceName, 1 ≤ s.number → s.number ≤ maxInt64 →
        Holds (server drive 0) (fun t => t = some slots ∨ t = some (without slots s)) (OnOk fun _ t => t = some (without slots s))
          (deleteVolume drive.path deviceName s.name (identityOf drive s)) (some slots)) ∧
      ∀ s ∈ slots, without slots s = (slots.filter fun x => x ≠ s) ∧ ∀ deviceName choose, Calm drive choose →
        run (calmly drive 0 choose) (deleteVolume drive.path deviceName s.name (identityOf drive s)) (some slots) =
          some (.ok (), some (without slots s)) := by
  have halloc : Allocated drive table := h.inv (body_holds drive) .refl
  refine ⟨halloc, ?_⟩
  rintro slots rfl
  have hsound := halloc.sound
  refine ⟨hsound, fun deviceName => ?_, fun deviceName name size htext => ?_, fun s hs deviceName size hsize => ⟨?_, ?_⟩,
    fun s deviceName h₀ h₁ => ?_, fun s hs => ⟨hsound.without_eq hs, fun deviceName choose hcalm => ?_⟩⟩
  · exact (setupStorage_some (I := (· = some slots)) le_rfl deviceName hsound rfl).mono fun _ _ _ _ => trivial
  · exact createVolume_holds le_rfl hsound halloc deviceName htext fun s hs _ _ => halloc.tail (.add hs)
  · -- the name is taken, so nothing is added, and the partition that is returned is the one with the name
    refine (createVolume_holds (I := (· = some slots)) le_rfl hsound rfl deviceName (hsound.text s hs)
      fun s' hs' _ hname => ?_).mono ?_
    · exact absurd (List.mem_map_of_mem hs) (hname ▸ hs'.name)
    · rintro r t rfl hr id rfl
      obtain ⟨slots', s', ⟨⟩, hs', hname, -, rfl⟩ := hr id rfl
      rw [hsound.eq_of_name hs' hs hname]
  · intro choose hcalm
    obtain ⟨r, t, hrun, rfl, rfl⟩ : Yields (calmly drive size choose) _ _ _ :=
      createVolume_yields hcalm hsound hs deviceName hsize
    exact hrun
  · rw [← filter_targets drive slots h₀ h₁]
    exact deleteVolume_holds le_rfl hsound (.inl rfl) (fun _ _ _ => .inr rfl) deviceName
  · obtain ⟨h₀, h₁⟩ := hsound.number_range s hs
    obtain ⟨r, t, hrun, rfl, rfl⟩ : Yields (calmly drive 0 choose) _ _ _ :=
      deleteVolume_yields hcalm hsound hs deviceName (targets_identityOf drive h₀ h₁)
    exact hrun

end sessions

section run

attribute [local instance] asciiLib

/-- A disk of 8 MiB. -/
def smallDrive : Drive where
  path := "/dev/sda"
  canonical := ⟨[str "dev", str "sda"], by decide, by decide, rfl⟩
  oneLine := by decide
  first := 17408
  last := 8371711
  first_nonneg := by decide
  last_le := by decide

/-- One partition on it. -/
def firstSlot : Slot := ⟨1, ⟨1048576, 5242879⟩, "a", 1⟩

def firstName : { name : Str // fieldText name = true } := ⟨str "a", by decide⟩

/-- The choices of a run that labels the disk, and of one that makes the partition. -/
def setupChoices : List Choice := [{ }, { }, { }, { }, { }, { }]

def createChoices : List Choice :=
  [{ }, { rows := [.free ⟨17408, 8371711⟩] }, { }, { rows := [.slot firstSlot [] []] }, { }, { }]

theorem setup_ends :
    (exec (serve smallDrive 0) setupChoices ((Job.setup []).body smallDrive) none).2 = some [] := by decide +kernel

theorem create_ends :
    (exec (serve smallDrive 1) createChoices ((Job.create [] firstName 1).body smallDrive) (some [])).2 = some [firstSlot] := by
  decide +kernel

theorem reached_first : Reached smallDrive (some [firstSlot]) := by
  have hsetup := reaches_exec (serve smallDrive 0) setupChoices ((Job.setup []).body smallDrive) none
  have hcreate := reaches_exec (serve smallDrive 1) createChoices ((Job.create [] firstName 1).body smallDrive) (some [])
  rw [setup_ends] at hsetup
  rw [create_ends] at hcreate
  exact .step (.create [] firstName 1) (.step (.setup []) (.refl none) hsetup) hcreate

theorem parted_refines_allocator_first : Reached smallDrive (some [firstSlot]) ∧ Sound smallDrive [firstSlot] ∧
      run (calmly smallDrive 0 (plainly smallDrive)) (deleteVolume smallDrive.path [] firstSlot.name
        (identityOf smallDrive firstSlot)) (some [firstSlot]) = some (.ok (), some []) := by
  obtain ⟨-, h⟩ := parted_refines_allocator smallDrive reached_first
  obtain ⟨hsound, -, -, -, -, hdelete⟩ := h _ rfl
  exact ⟨reached_first, hsound, (hdelete firstSlot (List.mem_singleton_self _)).2 [] _ (calm_plainly _)⟩

end run


end Distort.Volumes
