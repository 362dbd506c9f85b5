import Distort.Lib.Server
import Distort.Csi.Node

/-!
Taking off everything that is mounted at a path: `unmount` of `node_server.go`, on any table of mounts.

* `mounts` — a node whose table is what is read of it: `umount` takes off the topmost record at its path, and a command
  that fails changes nothing;
* `unmount_drains` — the loop goes round at most once more than there are records at the target, leaves none of them if
  it succeeds, and all others as they are;
* `unstage_unmounts_first` — `NodeUnstageVolume` disconnects a volume only when nothing is mounted at its path any more.
-/

namespace Distort.Csi

open Go Lib Lib.Prog

/-! ### The table -/

def MountRecord.isAt (target : Str) (r : MountRecord) : Bool := r.target = clean target

/-- The table without the last record at the target. -/
def popMount (target : Str) (table : List MountRecord) : List MountRecord :=
  (table.reverse.eraseP (·.isAt target)).reverse

/-- The two ways to say that nothing is mounted. -/
def saysNotMounted (output : Str) : Bool := contains output "not mounted" || contains output "no mount point specified"

/-- The node: reading the table may fail, and it may come out as a text that is not understood. -/
def mounts [StdLib] : Server HostCall HostCall.Resp (List MountRecord)
  | .readMountInfo, table, r, table' =>
    table' = table ∧ ∀ data records, r = .ok data → parseMountInfo data = .ok records → records = table
  | .umount _ path, table, .ok _, table' => table' = popMount path table
  | .umount _ path, table, .error f, table' =>
    table' = table ∧ (saysNotMounted f.output = true → ∀ record ∈ table, record.isAt path = false)
  | _, table, _, table' => table' = table

section table

variable {target : Str} {table : List MountRecord}

theorem popMount_of_mem {record : MountRecord} (h : record ∈ table) (ht : record.isAt target = true) :
    ∃ below top above, table = below ++ top :: above ∧ top.isAt target = true ∧ popMount target table = below ++ above := by
  obtain ⟨top, above, below, -, htop, htable, hpop⟩ := List.exists_of_eraseP (List.mem_reverse.2 h) ht
  refine ⟨below.reverse, top, above.reverse, ?_, htop, ?_⟩
  · rw [← List.reverse_reverse table, htable]
    simp
  · rw [popMount, hpop, List.reverse_append]

theorem countP_popMount {record : MountRecord} (h : record ∈ table) (ht : record.isAt target = true) :
    (popMount target table).countP (·.isAt target) + 1 = table.countP (·.isAt target) ∧
      (popMount target table).filter (!·.isAt target) = table.filter (!·.isAt target) := by
  obtain ⟨below, top, above, htable, htop, hpop⟩ := popMount_of_mem h ht
  rw [hpop, htable]
  constructor
  · rw [List.countP_append, List.countP_append, List.countP_cons_of_pos htop]
    rfl
  · rw [List.filter_append, List.filter_append, List.filter_cons_of_neg (by rw [htop]; decide)]

variable [StdLib]

theorem mountAt_of_mounts {r : Except Err Str} {table' : List MountRecord} {found : Option MountRecord}
    (h : mounts .readMountInfo table r table') (hfound : mountAt r target = .ok found) :
    found = table.reverse.find? (·.isAt target) := by
  rcases r with err | data
  · cases hfound
  rw [mountAt] at hfound
  rcases hparse : parseMountInfo data with err | records
  · rw [hparse] at hfound
    cases hfound
  · rw [hparse] at hfound
    cases hfound
    rw [h.2 data records rfl hparse]
    rfl

end table

/-! ### The loop -/

variable (ctx : Ctx)

section loop

variable [StdLib] {target : Str} {table : List MountRecord}

theorem interruptedOr_ensures {ε α : Type} {interrupted : Err → ε} {k : HostProc (Except ε α)}
    {Q : Except ε α → List MountRecord → Prop} (herr : ∀ err, Q (.error err) table) (hk : k.Ensures mounts Q table) :
    (HostProc.interruptedOr ctx interrupted k).Ensures mounts Q table := by
  refine .bind (.op ⟨none, table, rfl⟩ ?_)
  rintro (_ | err) _ rfl
  · exact hk
  · exact .ret (herr _)

theorem unmount_ensures {rounds : ℕ} (hrounds : table.countP (·.isAt target) < rounds) :
    (unmount ctx target rounds).Ensures mounts (fun r table' =>
      (r = .ok () → ∀ record ∈ table', record.isAt target = false) ∧
      table'.filter (!·.isAt target) = table.filter (!·.isAt target)) table := by
  induction rounds generalizing table with
  | zero => exact absurd hrounds (Nat.not_lt_zero _)
  | succ rounds ih =>
    refine interruptedOr_ensures ctx (fun _ => ⟨nofun, rfl⟩) ?_
    refine .bind (.op ⟨.error (.errorf "" []), table, rfl, nofun⟩ fun r table1 hread => ?_)
    obtain rfl : table1 = table := hread.1
    rcases hat : mountAt r target with err | found
    · exact .ret ⟨nofun, rfl⟩
    have hfound := mountAt_of_mounts hread hat
    rcases found with _ | found
    · refine .ret ⟨fun _ record hrecord => ?_, rfl⟩
      simpa using List.find?_eq_none.1 hfound.symm record (List.mem_reverse.2 hrecord)
    have hmem := List.mem_reverse.1 (List.mem_of_find?_eq_some hfound.symm)
    obtain ⟨hcount, hothers⟩ := countP_popMount hmem (List.find?_some hfound.symm)
    refine .bind (.op ⟨.ok (), _, rfl⟩ fun r table2 hr => ?_)
    rcases r with f | _
    · -- the command failed: nothing is different
      obtain ⟨rfl, hnone⟩ := hr
      refine interruptedOr_ensures ctx (fun _ => ⟨nofun, rfl⟩) ?_
      split
      · exact .ret ⟨fun _ => hnone ‹_›, rfl⟩
      · exact .ret ⟨nofun, rfl⟩
    · obtain rfl : table2 = popMount target table1 := hr
      refine (ih (by omega)).mono fun r table3 h => ?_
      exact ⟨h.1, h.2.trans hothers⟩

/-- **Everything at the target goes, and nothing else**: the loop ends within one round more than there are records, if it
succeeds none is left, and the other records are as they were. -/
theorem unmount_drains (target : Str) (table : List MountRecord) :
    (unmount ctx target (table.countP (·.isAt target) + 1)).Ensures mounts (fun r table' =>
      (r = .ok () → ∀ record ∈ table', record.isAt target = false) ∧
      table'.filter (!·.isAt target) = table.filter (!·.isAt target)) table :=
  unmount_ensures ctx (Nat.lt_succ_self _)

end loop

/-! ### Unstaging -/

section unstaging

/-- Whether a call takes the device of a volume away. -/
def unplugs : HostCall → Bool
  | .nvmeDisconnect _ _ => true
  | _ => false

variable [StdLib]

/-- The same node, where no device may go while something is mounted at the path. -/
def unplugged (path : Str) : Server HostCall HostCall.Resp (List MountRecord) := fun c table r table' =>
  mounts c table r table' ∧ (unplugs c = true → ∀ record ∈ table, record.isAt path = false)

omit [StdLib] in
theorem interruptedOr_only {ε α : Type} {ctx : Ctx} {g : Err → ε} {k : HostProc (Except ε α)}
    (hk : k.Only fun c => unplugs c = false) : (HostProc.interruptedOr ctx g k).Only fun c => unplugs c = false := by
  refine Only.bind (P := fun c => unplugs c = false) ⟨rfl, fun _ => trivial⟩ fun err => ?_
  cases err with
  | some err => trivial
  | none => exact hk

theorem unmount_only (target : Str) (rounds : ℕ) : (unmount ctx target rounds).Only fun c => unplugs c = false := by
  induction rounds with
  | zero => exact ⟨rfl, nofun⟩
  | succ rounds ih =>
    refine interruptedOr_only (Only.bind (P := fun c => unplugs c = false) ⟨rfl, fun _ => trivial⟩ fun data => ?_)
    split
    · trivial
    · trivial
    refine Only.check (P := fun c => unplugs c = false) ⟨rfl, fun _ => trivial⟩ (fun f => interruptedOr_only ?_) fun _ => ih
    split <;> trivial

omit [StdLib] in
theorem validateNodePath_ok {field : String} {path path' : Str} (h : validateNodePath field path = .ok path') :
    path' = path := by
  unfold validateNodePath at h
  split_ifs at h
  exact (Except.ok.inj h).symm

theorem disconnectRDMA_ensures {path : Str} {table : List MountRecord} (nqn : Str)
    (hfree : ∀ record ∈ table, record.isAt path = false) :
    (disconnectRDMA .request nqn).Ensures (unplugged path) (fun _ table' => table' = table) table := by
  refine .bind (.op ⟨.ok (), table, rfl, fun _ => hfree⟩ fun r table1 hr => ?_)
  obtain rfl : table1 = table := hr.1
  rcases r with f | _
  · refine .bind (.op ⟨none, table1, rfl, nofun⟩ fun err table2 hr => ?_)
    obtain rfl : table2 = table1 := hr.1
    cases err with
    | some err => exact .ret rfl
    | none =>
      dsimp only
      split <;> exact .ret rfl
  · exact .ret rfl

/-- **Unmounted before it is disconnected.**  Unstaging ends, it takes the device away only when nothing is mounted at
the staging path any more, and the mounts at other paths are as they were. -/
theorem unstage_unmounts_first (req : NodeUnstageRequest) (table : List MountRecord) :
    (nodeUnstageVolume (table.countP (·.isAt req.stagingTargetPath) + 1) req).Ensures (unplugged req.stagingTargetPath)
      (fun r table' => (r = .ok () → ∀ record ∈ table', record.isAt req.stagingTargetPath = false) ∧
        table'.filter (!·.isAt req.stagingTargetPath) = table.filter (!·.isAt req.stagingTargetPath)) table := by
  unfold nodeUnstageVolume
  split
  · exact .ret ⟨nofun, rfl⟩
  split
  · exact .ret ⟨nofun, rfl⟩
  rename_i path hpath
  obtain rfl := validateNodePath_ok hpath
  have hunmount := Ensures.of_only (T := unplugged req.stagingTargetPath)
    (unmount_ensures .request (Nat.lt_succ_self (table.countP (·.isAt req.stagingTargetPath)))) (unmount_only _ _ _)
    fun c s r s' hc => and_iff_left (by rw [hc]; nofun)
  refine .bind (hunmount.mono fun r table1 h => ?_)
  rcases r with err | _
  · exact .ret ⟨nofun, h.2⟩
  dsimp only
  split
  · exact .ret ⟨nofun, h.2⟩
  refine .bind ((disconnectRDMA_ensures _ (h.1 rfl)).mono ?_)
  rintro (err | _) _ rfl
  · exact .ret ⟨nofun, h.2⟩
  · exact .ret ⟨fun _ => h.1 rfl, h.2⟩

end unstaging

end Distort.Csi
